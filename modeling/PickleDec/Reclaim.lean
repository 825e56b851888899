import PickleDec.Owners
import PickleDec.Teardown

/-!
# `empty_state` frees every cell, and none twice

The note at the top of `pickle_dec.c`: the memo is released with `py_obj_free`, "you can't
leak by using py_obj_free because an object that is referenced by the memo, must also be
referenced by one of the stacks", and the stacks with `py_obj_deep_free`, which "won't
leak, even for elements that self reference", while "ensuring all pointers of an object
are NULL'd before free'ing the pointer itself, will prevent double-free's".

Both halves are proved here for every reachable state. `Pending s E P` is the invariant
of the frees under way, with `E` and `P` the object and oper pointers not yet released
(what is left of the lists `empty_state` walks, and the saved payloads of the calls in
progress): every live cell counts exactly its owners, in the heaps and among the pending
pointers, and every cell still holding pointers is reached from a pending one. A call
on a pending pointer finds its cell live, and leaves `Pending` with that pointer
released; when nothing is pending, nothing holds a pointer, no cell has an owner, and
since no count fell below zero (`Owners`), no cell is live.

The checked frees are the frees with one change: a call that finds its cell freed,
where the C code reads or writes a freed struct, answers `none`.
-/

set_option autoImplicit false

namespace PickleDec

open PMState

/-! ## Paths around a changed cell -/

/-- A path along `E` is one along `E'`, or it left `E'` by an edge into `S` and ran along
    `E'` from there. -/
theorem Path.reroute {E E' : Addr → List Addr} {S : List Addr}
    (hE : ∀ y, ∀ c ∈ E y, c ∈ E' y ∨ c ∈ S) {e b : Addr} (h : Path E e b) :
    Path E' e b ∨ ∃ c ∈ S, Path E' c b := by
  induction h with
  | refl => exact .inl (.refl _)
  | @step a c b hmem _ ih =>
    rcases ih with hp | hc
    · rcases hE a c hmem with h' | hS
      · exact .inl (.step h' hp)
      · exact .inr ⟨c, hS, hp⟩
    · exact .inr hc

/-- Nothing is reachable from a node without edges but itself. -/
theorem Path.eq_of_nil {E : Addr → List Addr} {e b : Addr} (he : E e = []) (h : Path E e b) :
    b = e := by
  cases h with
  | refl => rfl
  | step hmem _ => simp [he] at hmem

/-! ## Payloads with their pointers nulled -/

@[simp] theorem PyVal.objPtrs_nulled (v : PyVal) : v.nulled.objPtrs = [] := by
  cases v <;> rfl

@[simp] theorem PyVal.operPtrs_nulled (v : PyVal) : v.nulled.operPtrs = [] := by
  cases v <;> rfl

@[simp] theorem PyVal.nulled_nulled (v : PyVal) : v.nulled.nulled = v.nulled := by
  cases v <;> rfl

theorem PyVal.ptrCount_eq_zero {v : PyVal} : v.ptrCount = 0 ↔ v.objPtrs = [] ∧ v.operPtrs = [] := by
  simp [PyVal.ptrCount]

/-! ## Owners in the heaps -/

namespace PMState

/-- The owning pointers to the object `a` held in the two heaps: as an element or field
    of a live object, as an argument of a live oper. -/
def heapRefs (s : PMState) (a : Addr) : Nat :=
  s.objs.countIn (fun o => o.val.objPtrs) a + s.opers.countIn PyOper.stack a

/-- `a` is reachable from a pending pointer: an object of `E`, or an argument of an oper
    of `P`. -/
def Covered (s : PMState) (E : List Addr) (P : List OAddr) (a : Addr) : Prop :=
  ∃ e ∈ E ++ P.flatMap s.operArgs, Reach s e a

theorem mem_children {s : PMState} {y c : Addr} :
    c ∈ s.children y ↔ ∃ o, s.objs.get y = some o ∧
      (c ∈ o.val.objPtrs ∨ ∃ p ∈ o.val.operPtrs, c ∈ s.operArgs p) := by
  unfold children
  split <;> simp_all

theorem children_eq_nil {s : PMState} {y : Addr} {o : PyObj} (hy : s.objs.get y = some o)
    (hz : o.val.ptrCount = 0) : s.children y = [] := by
  rw [PyVal.ptrCount_eq_zero] at hz
  simp [children, hy, hz.1, hz.2]

theorem Reach.of_children {s s' : PMState} (h : s'.children = s.children) {a b : Addr}
    (hr : Reach s a b) : Reach s' a b := by
  show Path s'.children a b
  rw [h]; exact hr

/-- An object that is a child of a live object has an owner in the heaps. -/
theorem heapRefs_pos_of_child {s : PMState} {a y : Addr} (ha : a ∈ s.children y) : 0 < s.heapRefs a := by
  obtain ⟨o, hy, hc⟩ := mem_children.mp ha
  unfold heapRefs
  rcases hc with hc | ⟨p, -, hc⟩
  · have := Store.countIn_pos (fun o : PyObj => o.val.objPtrs) hy hc; omega
  · unfold operArgs at hc
    cases hq : s.opers.get p with
    | none => simp [hq] at hc
    | some q => have := Store.countIn_pos PyOper.stack hq (by simpa [hq] using hc); omega

/-- A path into `a` from the pending pointers, moved to `s'` where every edge of `s` is
    kept or leads to a pending pointer of `s'`. -/
theorem Covered.reroute {s s' : PMState} {E E' : List Addr} {P P' : List OAddr}
    (hE : ∀ y, ∀ c ∈ s.children y, c ∈ s'.children y ∨ c ∈ E' ++ P'.flatMap s'.operArgs)
    (hS : ∀ e ∈ E ++ P.flatMap s.operArgs, e ∈ E' ++ P'.flatMap s'.operArgs) {b : Addr}
    (h : s.Covered E P b) : s'.Covered E' P' b := by
  obtain ⟨e, he, hpath⟩ := h
  rcases Path.reroute hE hpath with hp | ⟨c, hc, hp⟩
  · exact ⟨e, hS e he, hp⟩
  · exact ⟨c, hc, hp⟩

end PMState

/-! ## The invariant of the frees -/

/-- The frees of `empty_state` under way, with `E` the object pointers and `P` the oper
    pointers still to be released. -/
structure Pending (s : PMState) (E : List Addr) (P : List OAddr) : Prop where
  objCount : ∀ a, (s.heapRefs a + E.count a : Int) = s.objs.held PyObj.refcnt a
  operCount : ∀ p, (s.operRefCount p + P.count p : Int) = s.opers.held PyOper.refcnt p
  reach : ∀ a o, s.objs.get a = some o → o.val.ptrCount ≠ 0 → s.Covered E P a
  reachOper : ∀ p q, s.opers.get p = some q → q.stack ≠ [] →
    p ∈ P ∨ ∃ b o, s.objs.get b = some o ∧ p ∈ o.val.operPtrs ∧ s.Covered E P b

/-- `s'` is `s` with pointers detached and cells freed: a live object of `s'` was live in
    `s` with the same payload or with it nulled, a live oper with the same arguments or
    none. -/
def Detaches (s s' : PMState) : Prop :=
  (∀ a o', s'.objs.get a = some o' → ∃ o, s.objs.get a = some o ∧ (o'.val = o.val ∨ o'.val = o.val.nulled)) ∧
  ∀ p q', s'.opers.get p = some q' → ∃ q, s.opers.get p = some q ∧ (q'.stack = q.stack ∨ q'.stack = [])

namespace Detaches

theorem refl (s : PMState) : Detaches s s :=
  ⟨fun _ o h => ⟨o, h, .inl rfl⟩, fun _ q h => ⟨q, h, .inl rfl⟩⟩

theorem trans {s₁ s₂ s₃ : PMState} (h₁ : Detaches s₁ s₂) (h₂ : Detaches s₂ s₃) : Detaches s₁ s₃ := by
  refine ⟨fun a o₃ h => ?_, fun p q₃ h => ?_⟩
  · obtain ⟨o₂, h₂', e₂⟩ := h₂.1 a o₃ h
    obtain ⟨o₁, h₁', e₁⟩ := h₁.1 a o₂ h₂'
    refine ⟨o₁, h₁', ?_⟩
    rcases e₂ with e₂ | e₂ <;> rcases e₁ with e₁ | e₁ <;> simp [e₁, e₂]
  · obtain ⟨q₂, h₂', e₂⟩ := h₂.2 p q₃ h
    obtain ⟨q₁, h₁', e₁⟩ := h₁.2 p q₂ h₂'
    refine ⟨q₁, h₁', ?_⟩
    rcases e₂ with e₂ | e₂ <;> rcases e₁ with e₁ | e₁ <;> simp [e₁, e₂]

/-- A cell whose pointers were detached keeps none. -/
theorem ptrCount {s s' : PMState} (h : Detaches s s') {a : Addr} {o o' : PyObj}
    (ha : s.objs.get a = some o) (hz : o.val.ptrCount = 0) (ha' : s'.objs.get a = some o') :
    o'.val.ptrCount = 0 := by
  obtain ⟨o₁, h₁, e⟩ := h.1 a o' ha'
  rw [ha] at h₁; cases h₁
  rcases e with e | e <;> rw [e]
  · exact hz
  · exact PyVal.ptrCount_nulled _

theorem stack {s s' : PMState} (h : Detaches s s') {p : OAddr} {q q' : PyOper}
    (hp : s.opers.get p = some q) (hz : q.stack = []) (hp' : s'.opers.get p = some q') :
    q'.stack = [] := by
  obtain ⟨q₁, h₁, e⟩ := h.2 p q' hp'
  rw [hp] at h₁; cases h₁
  rcases e with e | e <;> rw [e]
  exact hz

end Detaches

/-! ## What each step of a free does to `Pending` -/

/-- Freeing a cell that points nowhere leaves every count of pointers as it was. -/
theorem Store.countIn_free_of_nil {α : Type} (g : α → List Nat) {s : Store α} {a : Nat}
    (h : ∀ y, s.get a = some y → g y = []) (x : Nat) : Store.countIn g (s.free a) x = Store.countIn g s x := by
  have := Store.countIn_free g s a x
  cases hy : s.get a with
  | none => simpa [hy] using this
  | some y => simpa [hy, h y hy] using this

/-- No live cell points to `x`: nothing counts. -/
theorem Store.countIn_eq_zero {α : Type} (g : α → List Nat) {x : Nat} :
    ∀ {s : Store α}, (∀ a y, s.get a = some y → x ∉ g y) → Store.countIn g s x = 0
  | [], _ => rfl
  | c :: s, h => by
    have h₀ : Store.cnt g x c = 0 := by
      cases c with
      | none => rfl
      | some y => exact List.count_eq_zero.mpr (h 0 y (by simp [Store.get]))
    have ih : Store.countIn g s x = 0 :=
      Store.countIn_eq_zero g fun a y hy => h (a + 1) y (by simpa [Store.get] using hy)
    simp only [Store.countIn, List.map_cons, List.sum_cons] at ih ⊢
    omega

theorem Store.exists_of_countIn_pos {α : Type} (g : α → List Nat) {s : Store α} {x : Nat}
    (h : 0 < Store.countIn g s x) : ∃ a y, s.get a = some y ∧ x ∈ g y := by
  by_contra hn
  push_neg at hn
  rw [Store.countIn_eq_zero g hn] at h
  exact Nat.lt_irrefl 0 h

namespace PMState

variable {s : PMState}

theorem children_modObj {f : PyObj → PyObj} (hf : ∀ o, (f o).val = o.val) (a : Addr) :
    (s.modObj a f).children = s.children := by
  funext y
  simp only [children, modObj, Store.get_modify]
  split_ifs <;> cases s.objs.get y <;> simp [hf]

theorem heapRefs_modObj {f : PyObj → PyObj} (hf : ∀ o, (f o).val = o.val) (a b : Addr) :
    (s.modObj a f).heapRefs b = s.heapRefs b := by
  simp only [heapRefs, modObj]
  rw [Store.countIn_modify_of _ _ _ _ _ fun o => by rw [hf]]

/-- Nulling the pointers of the object at `a` takes them out of the heap counts. -/
theorem heapRefs_null {a : Addr} {o : PyObj} (ha : s.objs.get a = some o) (b : Addr) :
    (s.modObj a fun o => { o with varname := none, val := o.val.nulled }).heapRefs b +
      o.val.objPtrs.count b = s.heapRefs b := by
  have := Store.countIn_modify (fun o : PyObj => o.val.objPtrs) s.objs a b
    fun o => { o with varname := none, val := o.val.nulled }
  simp only [ha, Store.cnt_some, Option.map_some', PyVal.objPtrs_nulled, List.count_nil] at this
  simp only [heapRefs, modObj]
  omega

theorem operRefCount_null {a : Addr} {o : PyObj} (ha : s.objs.get a = some o) (p : OAddr) :
    (s.modObj a fun o => { o with varname := none, val := o.val.nulled }).operRefCount p +
      o.val.operPtrs.count p = s.operRefCount p := by
  have := Store.countIn_modify (fun o : PyObj => o.val.operPtrs) s.objs a p
    fun o => { o with varname := none, val := o.val.nulled }
  simp only [ha, Store.cnt_some, Option.map_some', PyVal.operPtrs_nulled, List.count_nil] at this
  simp only [operRefCount, modObj]
  omega

end PMState

namespace Pending

variable {s : PMState} {E : List Addr} {P : List OAddr}

/-- A pending object is live. -/
theorem live (hp : Pending s E P) {a : Addr} (ha : a ∈ E) : ∃ o, s.objs.get a = some o := by
  have := hp.objCount a
  have := List.count_pos_iff.mpr ha
  cases hg : s.objs.get a with
  | none => simp only [Store.held, hg, Option.map_none', Option.getD_none] at *; omega
  | some o => exact ⟨o, rfl⟩

/-- A pending oper is live. -/
theorem liveOper (hp : Pending s E P) {p : OAddr} (hP : p ∈ P) : ∃ q, s.opers.get p = some q := by
  have := hp.operCount p
  have := List.count_pos_iff.mpr hP
  cases hg : s.opers.get p with
  | none => simp only [Store.held, hg, Option.map_none', Option.getD_none] at *; omega
  | some q => exact ⟨q, rfl⟩

/-- Only the two heaps matter. -/
theorem of_heaps {s' : PMState} (h : Pending s E P) (ho : s'.objs = s.objs) (hq : s'.opers = s.opers) :
    Pending s' E P := by
  have hargs : s'.operArgs = s.operArgs := by funext p; simp only [operArgs, hq]
  have hch : s'.children = s.children := by funext y; simp only [children, ho, hargs]
  have hcov : ∀ b, s.Covered E P b → s'.Covered E P b := fun b ⟨e, he, hr⟩ =>
    ⟨e, by rwa [hargs], Reach.of_children hch hr⟩
  refine ⟨fun a => ?_, fun p => ?_, fun a o ha hz => hcov a (h.reach a o (ho ▸ ha) hz),
    fun p q hq' hne => (h.reachOper p q (hq ▸ hq') hne).imp_right fun ⟨b, o, hb, hpb, hc⟩ =>
      ⟨b, o, ho ▸ hb, hpb, hcov b hc⟩⟩
  · simpa only [heapRefs, ho, hq] using h.objCount a
  · simpa only [operRefCount, ho, hq] using h.operCount p

/-- Only how often a pointer is pending matters, not in which order. -/
theorem perm (hp : Pending s E P) {E' : List Addr} (hE : E.Perm E') : Pending s E' P := by
  have hmem : ∀ b, s.Covered E P b → s.Covered E' P b := fun b ⟨e, he, hpath⟩ =>
    ⟨e, by rw [List.mem_append] at he ⊢; exact he.imp_left hE.mem_iff.mp, hpath⟩
  exact ⟨fun a => hE.count_eq a ▸ hp.objCount a, hp.operCount,
    fun a o ha hz => hmem a (hp.reach a o ha hz),
    fun p q hq hne => (hp.reachOper p q hq hne).imp_right fun ⟨b, o, hb, hpb, hc⟩ =>
      ⟨b, o, hb, hpb, hmem b hc⟩⟩

/-- `py_obj_free_internal`'s nulling: the pointers of the object at `a` leave the heap and
    become pending, its objects and its opers alike. -/
theorem null (hp : Pending s E P) {a : Addr} {o : PyObj} (ha : s.objs.get a = some o) :
    Pending (s.modObj a fun o => { o with varname := none, val := o.val.nulled })
      (o.val.objPtrs ++ E) (o.val.operPtrs ++ P) := by
  have hh := heapRefs_null ha
  have ho := operRefCount_null ha
  set s₁ := s.modObj a fun o => { o with varname := none, val := o.val.nulled } with hs₁
  have hget : ∀ b, a ≠ b → s₁.objs.get b = s.objs.get b := fun b hb => by
    simp [hs₁, modObj, hb]
  have hcov : ∀ b, s.Covered E P b → s₁.Covered (o.val.objPtrs ++ E) (o.val.operPtrs ++ P) b :=
    fun b => Covered.reroute (fun y c hc => ?_) fun e he => ?_
  · refine ⟨fun b => ?_, fun p => ?_, fun b o' hb hz => ?_, fun p q hq hne => ?_⟩
    · rw [show s₁.objs.held PyObj.refcnt b = s.objs.held PyObj.refcnt b from
        Store.held_modify_of _ _ _ _ _ fun _ => rfl, ← hp.objCount b, List.count_append, ← hh b]
      push_cast; omega
    · rw [show s₁.opers = s.opers from rfl, ← hp.operCount p, List.count_append, ← ho p]
      push_cast; omega
    · by_cases hab : a = b
      · subst hab
        simp [hs₁, modObj, ha] at hb
        subst hb
        exact absurd (PyVal.ptrCount_nulled _) hz
      · rw [hget b hab] at hb
        exact hcov b (hp.reach b o' hb hz)
    · rcases hp.reachOper p q hq hne with hP | ⟨b, ob, hb, hpb, hc⟩
      · exact .inl (List.mem_append_right _ hP)
      by_cases hab : a = b
      · subst hab; rw [ha] at hb; cases hb
        exact .inl (List.mem_append_left _ hpb)
      · exact .inr ⟨b, ob, by rw [hget b hab, hb], hpb, hcov b hc⟩
  · obtain ⟨oy, hy, hc⟩ := mem_children.mp hc
    by_cases hay : a = y
    · subst hay; rw [ha] at hy; cases hy
      refine .inr ?_
      rcases hc with hc | ⟨p, hp', hc⟩
      · simp [hc]
      · exact List.mem_append_right _ (List.mem_flatMap.mpr ⟨p, List.mem_append_left _ hp', hc⟩)
    · exact .inl (mem_children.mpr ⟨oy, by rw [hget y hay, hy], hc⟩)
  · simp only [List.mem_append, List.mem_flatMap] at he ⊢
    rcases he with he | ⟨p, hP, he⟩
    · exact .inl (.inr he)
    · exact .inr ⟨p, .inr hP, he⟩

/-- The oper frees' nulling of `stack`: the arguments of the oper at `p` become pending. -/
theorem clear (hp : Pending s E P) {p : OAddr} {q : PyOper} (hq : s.opers.get p = some q) :
    Pending (s.modOper p fun q => { q with stack := [] }) (q.stack ++ E) P := by
  have hh : ∀ b, (s.modOper p fun q => { q with stack := [] }).heapRefs b + q.stack.count b =
      s.heapRefs b := fun b => by
    have := Store.countIn_modify PyOper.stack s.opers p b fun q => { q with stack := [] }
    simp only [hq, Store.cnt_some, Option.map_some', List.count_nil] at this
    simp only [heapRefs, modOper]
    omega
  set s₁ := s.modOper p fun q => { q with stack := [] } with hs₁
  have hargs : ∀ p', s₁.operArgs p' = if p = p' then [] else s.operArgs p' := fun p' => by
    simp only [hs₁, operArgs, modOper, Store.get_modify]
    split_ifs with h
    · subst h; simp [hq]
    · rfl
  have hmove : ∀ p', ∀ c ∈ s.operArgs p', c ∈ s₁.operArgs p' ∨ c ∈ q.stack := fun p' c hc => by
    rw [hargs]
    split_ifs with h
    · subst h; simp only [operArgs, hq, Option.map_some', Option.getD_some] at hc; exact .inr hc
    · exact .inl hc
  have hcov : ∀ b, s.Covered E P b → s₁.Covered (q.stack ++ E) P b :=
    fun b => Covered.reroute (fun y c hc => ?_) fun e he => ?_
  · refine ⟨fun b => ?_, fun p' => ?_, fun b o hb hz => hcov b (hp.reach b o hb hz),
      fun p' q' hq' hne => ?_⟩
    · rw [show s₁.objs = s.objs from rfl, ← hp.objCount b, List.count_append, ← hh b]
      push_cast; omega
    · exact (hp.operCount p').trans
        (Store.held_modify_of PyOper.refcnt s.opers p p' (fun q => { q with stack := [] }) fun _ => rfl).symm
    · have hpp : p ≠ p' := by
        rintro rfl
        simp [hs₁, modOper, hq] at hq'
        exact hne (hq' ▸ rfl)
      rw [show s₁.opers.get p' = s.opers.get p' by simp [hs₁, modOper, hpp]] at hq'
      exact (hp.reachOper p' q' hq' hne).imp_right fun ⟨b, o, hb, hpb, hc⟩ => ⟨b, o, hb, hpb, hcov b hc⟩
  · obtain ⟨o, hy, hc⟩ := mem_children.mp hc
    rcases hc with hc | ⟨p', hp', hc⟩
    · exact .inl (mem_children.mpr ⟨o, hy, .inl hc⟩)
    · rcases hmove p' c hc with hc | hc
      · exact .inl (mem_children.mpr ⟨o, hy, .inr ⟨p', hp', hc⟩⟩)
      · exact .inr (List.mem_append_left _ (List.mem_append_left _ hc))
  · simp only [List.mem_append, List.mem_flatMap] at he ⊢
    rcases he with he | ⟨p', hP, he⟩
    · exact .inl (.inr he)
    · rcases hmove p' e he with he | he
      · exact .inr ⟨p', hP, he⟩
      · exact .inl (.inl he)

/-- A path from a node without edges, into another node, starts at another pending
    pointer. -/
theorem covered_drop {s' : PMState} {a b : Addr} (hc : s.Covered (a :: E) P b) (hne : b ≠ a)
    (ha : s.children a = []) (hsub : ∀ y, ∀ c ∈ s.children y, c ∈ s'.children y)
    (hargs : s'.operArgs = s.operArgs) : s'.Covered E P b := by
  obtain ⟨e, he, hpath⟩ := hc
  rcases List.mem_append.mp he with he | he
  · rcases List.mem_cons.mp he with rfl | he
    · exact absurd (Path.eq_of_nil ha hpath) hne
    · exact ⟨e, List.mem_append_left _ he, hpath.mono hsub⟩
  · exact ⟨e, List.mem_append_right _ (hargs ▸ he), hpath.mono hsub⟩

/-- The end of `py_obj_deep_free` on a pending object whose pointers are detached: the
    count lowered, the cell freed at zero; the pointer is released. -/
theorem releaseObj {a : Addr} {o : PyObj} (hp : Pending s (a :: E) P) (ha : s.objs.get a = some o)
    (hz : o.val.ptrCount = 0) : Pending (PickleDec.releaseObj (s.bumpObj a (-1)) a o) E P := by
  obtain ⟨hzo, hzp⟩ := PyVal.ptrCount_eq_zero.mp hz
  have hbump : ∀ (g : PyObj → List Nat), g o = [] → (∀ o', g { o' with refcnt := o'.refcnt + -1 } = g o') →
      ∀ x, Store.countIn g (PickleDec.releaseObj (s.bumpObj a (-1)) a o).objs x = Store.countIn g s.objs x := by
    intro g hg hgf x
    unfold PickleDec.releaseObj
    split_ifs
    · rw [Store.countIn_free_of_nil g (fun y hy => ?_), bumpObj, modObj, Store.countIn_modify_of _ _ _ _ _ hgf]
      simp only [bumpObj, modObj, Store.get_modify, ha, if_true, Option.map_some', Option.some.injEq] at hy
      rw [← hy, hgf, hg]
    · exact Store.countIn_modify_of _ _ _ _ _ hgf
  set R := PickleDec.releaseObj (s.bumpObj a (-1)) a o with hR
  have hget : ∀ b, a ≠ b → R.objs.get b = s.objs.get b := by
    intro b hb; simp only [hR, PickleDec.releaseObj]; split_ifs <;> simp [bumpObj, modObj, hb]
  have hgeta : R.objs.get a = if o.refcnt ≤ 0 then none else some { o with refcnt := o.refcnt + -1 } := by
    simp only [hR, PickleDec.releaseObj]; split_ifs <;> simp [bumpObj, modObj, ha]
  have hopers : R.opers = s.opers := by simp only [hR, PickleDec.releaseObj]; split_ifs <;> rfl
  have hheap : ∀ b, R.heapRefs b = s.heapRefs b := fun b => by
    simp only [heapRefs, hopers, hbump (fun o => o.val.objPtrs) hzo fun _ => rfl]
  have hsub : ∀ y, ∀ c ∈ s.children y, c ∈ R.children y := fun y c hc => by
    obtain ⟨oy, hy, hc⟩ := mem_children.mp hc
    have hay : a ≠ y := by
      rintro rfl; rw [ha] at hy; cases hy
      simp [hzo, hzp] at hc
    exact mem_children.mpr ⟨oy, by rw [hget y hay, hy], by simpa only [operArgs, hopers] using hc⟩
  have hargs : R.operArgs = s.operArgs := by funext p; simp only [operArgs, hopers]
  have hnil := children_eq_nil ha hz
  refine ⟨fun b => ?_, fun p => ?_, fun b o' hb hz' => ?_, fun p q hq hne => ?_⟩
  · have h₁ := hp.objCount b
    rw [hheap]
    by_cases hab : a = b
    · subst hab
      simp only [Store.held, hgeta, ha, Option.map_some', Option.getD_some, List.count_cons_self] at h₁ ⊢
      split_ifs <;> simp only [Option.map_none', Option.map_some', Option.getD_none, Option.getD_some] <;>
        push_cast at h₁ ⊢ <;> omega
    · rw [List.count_cons_of_ne (Ne.symm hab)] at h₁
      rw [h₁]; simp only [Store.held, hget b hab]
  · rw [show R.operRefCount p = s.operRefCount p from hbump (fun o => o.val.operPtrs) hzp (fun _ => rfl) p,
      hopers]
    exact hp.operCount p
  · have hab : a ≠ b := by
      rintro rfl
      rw [hgeta] at hb
      split_ifs at hb
      cases hb
      exact hz' hz
    rw [hget b hab] at hb
    exact covered_drop (hp.reach b o' hb hz') (Ne.symm hab) hnil hsub hargs
  · rw [hopers] at hq
    rcases hp.reachOper p q hq hne with hP | ⟨b, ob, hb, hpb, hc⟩
    · exact .inl hP
    have hab : a ≠ b := by rintro rfl; rw [ha] at hb; cases hb; simp [hzp] at hpb
    exact .inr ⟨b, ob, by rw [hget b hab, hb], hpb, covered_drop hc (Ne.symm hab) hnil hsub hargs⟩

/-- The end of `pyop_deep_free` on a pending oper whose arguments are detached: the count
    lowered, the cell freed at zero; the pointer is released. -/
theorem releaseOper {p : OAddr} {q : PyOper} (hp : Pending s E (p :: P)) (hq : s.opers.get p = some q)
    (hz : q.stack = []) :
    Pending (let s := s.modOper p fun q => { q with refcnt := q.refcnt - 1 }
      if q.refcnt ≤ 0 then { s with opers := s.opers.free p } else s) E P := by
  dsimp only
  set R : PMState := if q.refcnt ≤ 0 then
      { s.modOper p fun q => { q with refcnt := q.refcnt - 1 } with
        opers := (s.modOper p fun q => { q with refcnt := q.refcnt - 1 }).opers.free p }
    else s.modOper p fun q => { q with refcnt := q.refcnt - 1 } with hR
  have hobjs : R.objs = s.objs := by simp only [hR]; split_ifs <;> rfl
  have hget : ∀ p', p ≠ p' → R.opers.get p' = s.opers.get p' := by
    intro p' hp'; simp only [hR]; split_ifs <;> simp [modOper, hp']
  have hgetp : R.opers.get p = if q.refcnt ≤ 0 then none else some { q with refcnt := q.refcnt - 1 } := by
    simp only [hR]; split_ifs <;> simp [modOper, hq]
  have hargs : R.operArgs = s.operArgs := by
    funext p'
    by_cases hpp : p = p'
    · subst hpp; simp only [operArgs, hgetp, hq]; split_ifs <;> simp [hz]
    · simp only [operArgs, hget p' hpp]
  have hchildren : R.children = s.children := by
    funext y; simp only [children, hobjs, hargs]
  have hheap : ∀ b, R.heapRefs b = s.heapRefs b := fun b => by
    have hst : ∀ y, (s.opers.modify p fun q => { q with refcnt := q.refcnt - 1 }).get p = some y →
        y.stack = [] := fun y hy => by
      simp only [Store.get_modify, hq, if_true, Option.map_some', Option.some.injEq] at hy
      rw [← hy, hz]
    have hcnt : R.opers.countIn PyOper.stack b = s.opers.countIn PyOper.stack b := by
      simp only [hR]
      split_ifs
      · exact (Store.countIn_free_of_nil _ hst b).trans (Store.countIn_modify_of _ _ _ _ _ fun _ => rfl)
      · exact Store.countIn_modify_of _ _ _ _ _ fun _ => rfl
    simp only [heapRefs, hobjs, hcnt]
  have hcov : ∀ b, s.Covered E (p :: P) b → R.Covered E P b := fun b ⟨e, he, hpath⟩ => by
    refine ⟨e, ?_, Reach.of_children hchildren hpath⟩
    simp only [List.flatMap_cons, operArgs, hq, hz, Option.map_some', Option.getD_some,
      List.nil_append] at he
    rwa [hargs]
  refine ⟨fun b => ?_, fun p' => ?_, fun b o hb hz' => ?_, fun p' q' hq' hne => ?_⟩
  · rw [hheap, hobjs]; exact hp.objCount b
  · have h₁ := hp.operCount p'
    rw [show R.operRefCount p' = s.operRefCount p' by simp only [operRefCount, hobjs]]
    by_cases hpp : p = p'
    · subst hpp
      simp only [Store.held, hgetp, hq, Option.map_some', Option.getD_some, List.count_cons_self] at h₁ ⊢
      split_ifs <;> simp only [Option.map_none', Option.map_some', Option.getD_none, Option.getD_some] <;>
        push_cast at h₁ ⊢ <;> omega
    · rw [List.count_cons_of_ne (Ne.symm hpp)] at h₁
      rw [h₁]; simp only [Store.held, hget p' hpp]
  · rw [hobjs] at hb
    exact hcov b (hp.reach b o hb hz')
  · have hpp : p ≠ p' := by
      rintro rfl
      rw [hgetp] at hq'
      split_ifs at hq'
      cases hq'
      exact hne hz
    rw [hget p' hpp] at hq'
    rcases hp.reachOper p' q' hq' hne with hP | ⟨b, ob, hb, hpb, hc⟩
    · exact .inl ((List.mem_cons.mp hP).resolve_left (Ne.symm hpp))
    · exact .inr ⟨b, ob, by rw [hobjs]; exact hb, hpb, hcov b hc⟩

/-- `py_obj_free` on a memo value that is also reached from a pending root: only the count
    falls. -/
theorem dropRooted {m r : Addr} {o : PyObj} (hp : Pending s (m :: E) P) (hm : s.objs.get m = some o)
    (hr : r ∈ E) (hrm : Reach s r m) : Pending (s.bumpObj m (-1)) E P := by
  have hf : ∀ o : PyObj, ({ o with refcnt := o.refcnt + -1 } : PyObj).val = o.val := fun _ => rfl
  have hch : (s.bumpObj m (-1)).children = s.children := children_modObj hf m
  have hcov : ∀ b, s.Covered (m :: E) P b → (s.bumpObj m (-1)).Covered E P b := fun b ⟨e, he, hpath⟩ => by
    rcases List.mem_append.mp he with he | he
    · rcases List.mem_cons.mp he with rfl | he
      · exact ⟨r, List.mem_append_left _ hr, Reach.of_children hch (hrm.trans hpath)⟩
      · exact ⟨e, List.mem_append_left _ he, Reach.of_children hch hpath⟩
    · exact ⟨e, List.mem_append_right _ he, Reach.of_children hch hpath⟩
  have hval : ∀ b o', (s.bumpObj m (-1)).objs.get b = some o' → ∃ o, s.objs.get b = some o ∧ o'.val = o.val :=
    fun b o' hb => by
      obtain ⟨x, hx, rfl⟩ := Store.get_modify_inv hb
      exact ⟨x, hx, by split_ifs <;> rfl⟩
  refine ⟨fun b => ?_, fun p => ?_, fun b o' hb hz => ?_, fun p q hq hne => ?_⟩
  · have h₁ := hp.objCount b
    rw [show (s.bumpObj m (-1)).heapRefs b = s.heapRefs b from heapRefs_modObj hf m b]
    by_cases hmb : m = b
    · subst hmb
      simp only [Store.held, bumpObj, modObj, Store.get_modify, hm, if_true, Option.map_some',
        Option.getD_some, List.count_cons_self] at h₁ ⊢
      push_cast at h₁ ⊢; omega
    · rw [List.count_cons_of_ne (Ne.symm hmb)] at h₁
      rw [h₁]; simp only [Store.held, bumpObj, modObj, Store.get_modify, if_neg hmb]
  · rw [show (s.bumpObj m (-1)).operRefCount p = s.operRefCount p from operRefCount_modObj s hf m p]
    exact hp.operCount p
  · obtain ⟨x, hx, hv⟩ := hval b o' hb
    exact hcov b (hp.reach b x hx (hv ▸ hz))
  · rcases hp.reachOper p q hq hne with hP | ⟨b, ob, hb, hpb, hc⟩
    · exact .inl hP
    · have := get_modObj_val s hf m b
      rw [hb] at this
      obtain ⟨ob', hb', hv⟩ := Option.map_eq_some'.mp this
      exact .inr ⟨b, ob', hb', hv ▸ hpb, hcov b hc⟩

/-- A pending object that is also reached from another pending pointer has another
    owner: its count is positive, and `py_obj_free` on it only lowers the count. -/
theorem pos_of_reach {m r : Addr} {o : PyObj} (hp : Pending s (m :: E) P) (hm : s.objs.get m = some o)
    (hr : r ∈ E) (hrm : Reach s r m) : 0 < o.refcnt := by
  have h₁ := hp.objCount m
  simp only [Store.held, hm, Option.map_some', Option.getD_some, List.count_cons_self] at h₁
  have : 0 < s.heapRefs m + E.count m := by
    rcases hrm.eq_or_mem with rfl | ⟨y, hy⟩
    · have := List.count_pos_iff.mpr hr; omega
    · have := heapRefs_pos_of_child hy; omega
  push_cast at h₁; omega

end Pending

/-! ## What a free may do to a cell -/

namespace Detaches

variable {s : PMState}

theorem modObj {a : Addr} {f : PyObj → PyObj} (hf : ∀ o, (f o).val = o.val ∨ (f o).val = o.val.nulled) :
    Detaches s (s.modObj a f) := by
  refine ⟨fun b o' h => ?_, fun p q h => ⟨q, h, .inl rfl⟩⟩
  obtain ⟨x, hx, rfl⟩ := Store.get_modify_inv h
  exact ⟨x, hx, by split_ifs; exacts [hf x, .inl rfl]⟩

theorem modOper {p : OAddr} {f : PyOper → PyOper} (hf : ∀ q, (f q).stack = q.stack ∨ (f q).stack = []) :
    Detaches s (s.modOper p f) := by
  refine ⟨fun a o h => ⟨o, h, .inl rfl⟩, fun p' q' h => ?_⟩
  obtain ⟨x, hx, rfl⟩ := Store.get_modify_inv h
  exact ⟨x, hx, by split_ifs; exacts [hf x, .inl rfl]⟩

theorem freeObj (a : Addr) : Detaches s { s with objs := s.objs.free a } := by
  refine ⟨fun b o h => ⟨o, ?_, .inl rfl⟩, fun p q h => ⟨q, h, .inl rfl⟩⟩
  simp only [Store.get_free] at h
  split_ifs at h; exact h

theorem freeOper (p : OAddr) : Detaches s { s with opers := s.opers.free p } := by
  refine ⟨fun a o h => ⟨o, h, .inl rfl⟩, fun p' q h => ⟨q, ?_, .inl rfl⟩⟩
  simp only [Store.get_free] at h
  split_ifs at h; exact h

theorem releaseObj (a : Addr) (o : PyObj) : Detaches s (PickleDec.releaseObj (s.bumpObj a (-1)) a o) := by
  have hb : Detaches s (s.bumpObj a (-1)) := modObj fun _ => .inl rfl
  unfold PickleDec.releaseObj
  split_ifs
  exacts [hb.trans (freeObj a), hb]

theorem releaseOper (p : OAddr) (q : PyOper) :
    Detaches s (let s := s.modOper p fun q => { q with refcnt := q.refcnt - 1 }
      if q.refcnt ≤ 0 then { s with opers := s.opers.free p } else s) := by
  have hb : Detaches s (s.modOper p fun q => { q with refcnt := q.refcnt - 1 }) := modOper fun _ => .inl rfl
  dsimp only
  split_ifs
  exacts [hb.trans (freeOper p), hb]

end Detaches

/-! ## The checked frees

The four frees with every use of a freed cell made a failure: where the model's free
finds no live cell at a pointer it was given, or at the cell it is about to free (and the
C code reads, writes or frees a freed struct), the checked free answers `none`; so does a
call the fuel does not reach. -/

/-- `py_obj_free_internal`, failing on a freed object and where a call it makes fails. -/
def pyObjFreeInternalChecked (objF : PMState → Option Addr → Option PMState)
    (opF : PMState → Option OAddr → Option PMState) (s : PMState) (a : Addr) : Option PMState :=
  match s.objs.get a with
  | none => none
  | some o =>
    let s := s.modObj a fun o => { o with varname := none, val := o.val.nulled }
    match o.val with
    | .iter _ items => items.foldlM (fun s x => objF s (some x)) s
    | .split r => opF s r
    | .func m n => objF s n >>= fun s => objF s m
    | .what ops => ops.foldlM (fun s p => opF s (some p)) s
    | _ => some s

mutual

/-- `py_obj_free`, checked. -/
def pyObjFreeChecked : Nat → PMState → Option Addr → Option PMState
  | _, s, none => some s
  | 0, _, some _ => none
  | n + 1, s, some a =>
    match s.objs.get a with
    | none => none
    | some o =>
      let s := s.bumpObj a (-1)
      if o.refcnt ≤ 0 then
        pyObjFreeInternalChecked (pyObjFreeChecked n) (pyopFreeChecked n) s a >>= fun s =>
          match s.objs.get a with
          | none => none
          | some _ => some { s with objs := s.objs.free a }
      else some s

/-- `pyop_free`, checked. -/
def pyopFreeChecked : Nat → PMState → Option OAddr → Option PMState
  | _, s, none => some s
  | 0, _, some _ => none
  | n + 1, s, some p =>
    match s.opers.get p with
    | none => none
    | some q =>
      let s := s.modOper p fun q => { q with refcnt := q.refcnt - 1 }
      if q.refcnt ≤ 0 then
        q.stack.foldlM (fun s x => pyObjFreeChecked n s (some x))
            (s.modOper p fun q => { q with stack := [] }) >>= fun s =>
          match s.opers.get p with
          | none => none
          | some _ => some { s with opers := s.opers.free p }
      else some s

end

mutual

/-- `py_obj_deep_free`, checked. -/
def pyObjDeepFreeChecked : Nat → PMState → Option Addr → Option PMState
  | _, s, none => some s
  | 0, _, some _ => none
  | n + 1, s, some a =>
    pyObjFreeInternalChecked (pyObjDeepFreeChecked n) (pyopDeepFreeChecked n) s a >>= fun s =>
      match s.objs.get a with
      | none => none
      | some o => some (releaseObj (s.bumpObj a (-1)) a o)

/-- `pyop_deep_free`, checked. -/
def pyopDeepFreeChecked : Nat → PMState → Option OAddr → Option PMState
  | _, s, none => some s
  | 0, _, some _ => none
  | n + 1, s, some p =>
    match s.opers.get p with
    | none => none
    | some q =>
      q.stack.foldlM (fun s x => pyObjDeepFreeChecked n s (some x))
          (s.modOper p fun q => { q with stack := [] }) >>= fun s =>
        match s.opers.get p with
        | none => none
        | some q' =>
          let s := s.modOper p fun q => { q with refcnt := q.refcnt - 1 }
          some (if q'.refcnt ≤ 0 then { s with opers := s.opers.free p } else s)

end

@[simp] theorem pyObjFreeChecked_none (n : Nat) (s : PMState) : pyObjFreeChecked n s none = some s := by
  cases n <;> rfl

@[simp] theorem pyopFreeChecked_none (n : Nat) (s : PMState) : pyopFreeChecked n s none = some s := by
  cases n <;> rfl

@[simp] theorem pyObjDeepFreeChecked_none (n : Nat) (s : PMState) :
    pyObjDeepFreeChecked n s none = some s := by
  cases n <;> rfl

@[simp] theorem pyopDeepFreeChecked_none (n : Nat) (s : PMState) :
    pyopDeepFreeChecked n s none = some s := by
  cases n <;> rfl

/-- `metastack_deep_free`, checked. -/
def metastackDeepFreeChecked (s : PMState) (l : List Addr) : Option PMState :=
  l.foldlM (fun s a => pyObjDeepFreeChecked s.freeFuel s (some a)) s

/-- `empty_state`, checked. -/
def emptyStateChecked (s : PMState) : Option PMState := do
  let s ← s.memo.foldlM (fun s e => pyObjFreeChecked s.freeFuel s e.2) { s with memo := [] }
  let s ← metastackDeepFreeChecked s s.stack
  let s ← s.metastack.foldlM metastackDeepFreeChecked { s with stack := [] }
  let s ← metastackDeepFreeChecked { s with metastack := [] } s.popstack
  pure { s with popstack := [] }

/-! ## Every call of the deep frees releases its pointer -/

/-- A free checked by `T` and run by `F`, against `Pend s L`, "`L` is pending in `s`": on
    a pointer pending together with `L`, at a fuel above the linked cells, the check
    passes, the pointer is released, and the free only detaches pointers. -/
def Releases (m : Nat) (Pend : PMState → List Nat → Prop) (T : PMState → Option Nat → Option PMState)
    (F : PMState → Option Nat → PMState) : Prop :=
  ∀ s x L, (x.isSome → s.linked < m) → Pend s (x.toList ++ L) →
    T s x = some (F s x) ∧ Pend (F s x) L ∧ Detaches s (F s x)

section Releases

variable {m : Nat} {Pend : PMState → List Nat → Prop} {T : PMState → Option Nat → Option PMState}
  {F : PMState → Option Nat → PMState}

theorem releases_zero (hT : ∀ s, T s none = some s) (hF : ∀ s, F s none = s) : Releases 0 Pend T F := by
  rintro s (_ | x) L hq hp
  · exact ⟨by rw [hT, hF], by rwa [hF], by rw [hF]; exact .refl s⟩
  · exact absurd (hq rfl) (Nat.not_lt_zero _)

/-- The calls of a `list_free_with` or of a payload loop, one per pointer of `l`. -/
theorem Releases.foldlM (h : Releases m Pend T F) {C : PMState → Option Nat → Option (PMState × Nat)}
    (hb : Bounded (·.linked < m) C F) :
    ∀ (l : List Nat) s L, (l ≠ [] → s.linked < m) → Pend s (l ++ L) →
      l.foldlM (fun s x => T s (some x)) s = some (l.foldl (fun s x => F s (some x)) s) ∧
        Pend (l.foldl (fun s x => F s (some x)) s) L ∧ Detaches s (l.foldl (fun s x => F s (some x)) s)
  | [], s, L, _, hp => ⟨rfl, hp, .refl s⟩
  | x :: l, s, L, hlt, hp => by
    have hs := hlt (List.cons_ne_nil x l)
    obtain ⟨hT, hP, hD⟩ := h s (some x) (l ++ L) (fun _ => hs) hp
    obtain ⟨k, -, -, hsh⟩ := hb s (some x) fun _ => hs
    obtain ⟨hT', hP', hD'⟩ := Releases.foldlM h hb l (F s (some x)) L
      (fun _ => linked_lt_of_shrinks _ _ hs hsh) hP
    exact ⟨by simpa only [List.foldlM_cons, hT, Option.some_bind] using hT', hP', hD.trans hD'⟩

/-- `py_obj_free_internal` on a pending object: its pointers nulled, then released by the
    calls it makes; the object stays pending, with no pointer left in it. -/
theorem pyObjFreeInternal_releases {objT opT : PMState → Option Nat → Option PMState}
    {objF opF : PMState → Option Nat → PMState} {objC opC : PMState → Option Nat → Option (PMState × Nat)}
    (hobj : ∀ P, Releases m (fun s E => Pending s E P) objT objF)
    (hop : ∀ E, Releases m (fun s P => Pending s E P) opT opF)
    (hbo : Bounded (·.linked < m) objC objF) (hbp : Bounded (·.linked < m) opC opF)
    {s : PMState} {a : Addr} {E : List Addr} {P : List OAddr} (hs : s.linked ≤ m)
    (hp : Pending s (a :: E) P) :
    pyObjFreeInternalChecked objT opT s a = some (pyObjFreeInternal objF opF s a) ∧
      Pending (pyObjFreeInternal objF opF s a) (a :: E) P ∧ Detaches s (pyObjFreeInternal objF opF s a) ∧
      ∀ o', (pyObjFreeInternal objF opF s a).objs.get a = some o' → o'.val.ptrCount = 0 := by
  obtain ⟨o, ha⟩ := hp.live (List.mem_cons_self a E)
  obtain ⟨hsh, -, hl⟩ := shrinks_null ha
  have hn := hp.null ha
  have hd : Detaches s (s.modObj a fun o => { o with varname := none, val := o.val.nulled }) :=
    Detaches.modObj fun _ => .inr rfl
  have hz : (s.modObj a fun o => { o with varname := none, val := o.val.nulled }).objs.get a =
      some { o with varname := none, val := o.val.nulled } := by
    simp [modObj, ha]
  unfold pyObjFreeInternalChecked pyObjFreeInternal
  simp only [ha]
  generalize s.modObj a (fun o => { o with varname := none, val := o.val.nulled }) = s₁ at hsh hl hn hd hz
  have hlt : 0 < o.val.ptrCount → s₁.linked < m := fun h => by omega
  have finish : ∀ s', Pending s' (a :: E) P → Detaches s₁ s' →
      Pending s' (a :: E) P ∧ Detaches s s' ∧ ∀ o', s'.objs.get a = some o' → o'.val.ptrCount = 0 :=
    fun s' hp' hd' => ⟨hp', hd.trans hd', fun _ h => hd'.ptrCount hz (PyVal.ptrCount_nulled _) h⟩
  cases hv : o.val <;> rw [hv] at hn hlt <;> dsimp only
  case iter t items =>
    obtain ⟨hT, hP, hD⟩ := (hobj P).foldlM hbo items s₁ (a :: E)
      (fun hne => hlt (by simpa using List.length_pos.mpr hne)) hn
    exact ⟨hT, finish _ hP hD⟩
  case what ops =>
    obtain ⟨hT, hP, hD⟩ := (hop (a :: E)).foldlM hbp ops s₁ P
      (fun hne => hlt (by simpa [PyVal.ptrCount] using List.length_pos.mpr hne)) hn
    exact ⟨hT, finish _ hP hD⟩
  case split r =>
    obtain ⟨hT, hP, hD⟩ := hop (a :: E) s₁ r P
      (fun h => hlt (by obtain ⟨p, rfl⟩ := Option.isSome_iff_exists.mp h; simp [PyVal.ptrCount])) hn
    exact ⟨hT, finish _ hP hD⟩
  case func mo na =>
    have hn' : Pending s₁ (na.toList ++ (mo.toList ++ a :: E)) P :=
      hn.perm (by simpa only [PyVal.objPtrs, List.append_assoc] using List.perm_append_comm_assoc _ _ _)
    obtain ⟨hT₁, hP₁, hD₁⟩ := hobj P s₁ na _
      (fun h => hlt (by obtain ⟨p, rfl⟩ := Option.isSome_iff_exists.mp h; simp)) hn'
    obtain ⟨k, -, -, hsh₁⟩ := hbo s₁ na
      fun h => hlt (by obtain ⟨p, rfl⟩ := Option.isSome_iff_exists.mp h; simp)
    obtain ⟨hT₂, hP₂, hD₂⟩ := hobj P (objF s₁ na) mo _ (fun h => linked_lt_of_shrinks _ _
      (hlt (by obtain ⟨p, rfl⟩ := Option.isSome_iff_exists.mp h; simp)) hsh₁) hP₁
    exact ⟨by rw [hT₁]; exact hT₂, finish _ hP₂ (hD₁.trans hD₂)⟩
  all_goals exact ⟨rfl, finish s₁ hn (.refl _)⟩

end Releases

/-- `py_obj_deep_free`: the payload released first, then the count lowered and the cell
    freed at zero. -/
theorem pyObjDeepFree_releases {n : Nat}
    (hobj : ∀ P, Releases n (fun s E => Pending s E P) (pyObjDeepFreeChecked n) (pyObjDeepFree n))
    (hop : ∀ E, Releases n (fun s P => Pending s E P) (pyopDeepFreeChecked n) (pyopDeepFree n))
    (P : List OAddr) :
    Releases (n + 1) (fun s E => Pending s E P) (pyObjDeepFreeChecked (n + 1)) (pyObjDeepFree (n + 1)) := by
  rintro s (_ | a) E hq hp
  · exact ⟨by simp, by simpa using hp, by simpa using Detaches.refl s⟩
  obtain ⟨hT, hP, hD, hz⟩ := pyObjFreeInternal_releases hobj hop (frees_bounded n).2.1
    (frees_bounded n).2.2.2 (Nat.lt_succ_iff.mp (hq rfl)) hp
  simp only [pyObjDeepFreeChecked, pyObjDeepFree, hT, Option.bind_eq_bind, Option.some_bind]
  generalize pyObjFreeInternal (pyObjDeepFree n) (pyopDeepFree n) s a = s₁ at hP hD hz
  obtain ⟨o, ha⟩ := hP.live (List.mem_cons_self a E)
  simp only [ha]
  exact ⟨trivial, hP.releaseObj ha (hz o ha), hD.trans (Detaches.releaseObj a o)⟩

/-- `pyop_deep_free`: the arguments released first, then the count lowered and the cell
    freed at zero. -/
theorem pyopDeepFree_releases {n : Nat}
    (hobj : ∀ P, Releases n (fun s E => Pending s E P) (pyObjDeepFreeChecked n) (pyObjDeepFree n))
    (E : List Addr) :
    Releases (n + 1) (fun s P => Pending s E P) (pyopDeepFreeChecked (n + 1)) (pyopDeepFree (n + 1)) := by
  rintro s (_ | p) P hq hp
  · exact ⟨by simp, by simpa using hp, by simpa using Detaches.refl s⟩
  obtain ⟨q, hqp⟩ := hp.liveOper (List.mem_cons_self p P)
  obtain ⟨hsh, -, hl⟩ := shrinks_clear hqp
  have hc := hp.clear hqp
  have hd : Detaches s (s.modOper p fun q => { q with stack := [] }) := Detaches.modOper fun _ => .inr rfl
  have hz : (s.modOper p fun q => { q with stack := [] }).opers.get p = some { q with stack := [] } := by
    simp [modOper, hqp]
  simp only [pyopDeepFreeChecked, pyopDeepFree, hqp]
  generalize s.modOper p (fun q => { q with stack := [] }) = s₁ at hsh hl hc hd hz
  have hq₁ := hq rfl
  obtain ⟨hT, hP, hD⟩ := (hobj (p :: P)).foldlM (frees_bounded n).2.1 q.stack s₁ E
    (fun hne => by have := List.length_pos.mpr hne; omega) hc
  simp only [hT, Option.bind_eq_bind, Option.some_bind]
  generalize q.stack.foldl (fun s x => pyObjDeepFree n s (some x)) s₁ = s₂ at hP hD
  obtain ⟨q', hq'⟩ := hP.liveOper (List.mem_cons_self p P)
  simp only [hq']
  exact ⟨trivial, hP.releaseOper hq' (hD.stack hz rfl hq'), hd.trans (hD.trans (Detaches.releaseOper p q'))⟩

/-- At every fuel, the deep frees release what they are given, and never touch a freed
    cell. -/
theorem releases_all : ∀ n,
    (∀ P, Releases n (fun s E => Pending s E P) (pyObjDeepFreeChecked n) (pyObjDeepFree n)) ∧
    (∀ E, Releases n (fun s P => Pending s E P) (pyopDeepFreeChecked n) (pyopDeepFree n))
  | 0 => ⟨fun _ => releases_zero (by simp) (by simp), fun _ => releases_zero (by simp) (by simp)⟩
  | n + 1 =>
    let ⟨h₁, h₂⟩ := releases_all n
    ⟨pyObjDeepFree_releases h₁ h₂, pyopDeepFree_releases h₁⟩

/-! ## `empty_state` on a reachable state -/

section Teardown

open Pending

/-- Before the frees: every owner of a cell is pending, the memo's values and the roots,
    and every cell that holds a pointer is reached from them. A `PY_SPLIT` is rooted only
    through the object that holds it, which its count says exists. -/
theorem pending_of_inv {s : PMState} (hi : Inv s []) (ho : s.Owned) :
    Pending s (s.memoVals ++ s.roots) [] := by
  have hrooted : ∀ a o, s.objs.get a = some o → ¬ s.IsSplit a → s.Covered (s.memoVals ++ s.roots) [] a :=
    fun a o ha hns => by
      obtain ⟨r, hr, hpath⟩ := hi.rooted a o ha hns
      exact ⟨r, by simpa using Or.inr (by simpa using hr), hpath.toReach⟩
  refine ⟨fun a => ?_, fun p => by simpa using hi.operCount p, fun a o ha _ => ?_, fun p q hq _ => ?_⟩
  · have := hi.objCount a
    simp only [objRefCount, List.count_nil, List.count_append, heapRefs] at this ⊢
    push_cast at this ⊢; omega
  · by_cases hs : s.IsSplit a
    · have hpos : 0 < s.objs.countIn (fun o => o.val.objPtrs) a := by
        have h₁ := hi.objCount a
        have h₂ := ho.1 a o ha
        have hr : s.roots.count a = 0 := List.count_eq_zero.mpr fun h => hi.rootsNoSplit a h hs
        have hm : s.memoVals.count a = 0 := List.count_eq_zero.mpr fun h => hi.memoNoSplit a h hs
        have hq : s.opers.countIn PyOper.stack a = 0 :=
          Store.countIn_eq_zero _ fun p q hq h => hi.argsNoSplit p q hq a h hs
        simp only [objRefCount, Store.held, ha, Option.map_some', Option.getD_some, List.count_nil,
          hr, hm, hq] at h₁
        push_cast at h₁; omega
      obtain ⟨b, ob, hb, hab⟩ := Store.exists_of_countIn_pos _ hpos
      have hbs : ¬ s.IsSplit b := fun h => by
        simp only [IsSplit, typeOf, hb, Option.map_some', Option.some.injEq] at h
        simp [PyObj.type, PyVal.objPtrs_eq_nil_of_split h] at hab
      obtain ⟨r, hr, hpath⟩ := hrooted b ob hb hbs
      exact ⟨r, hr, hpath.trans (.step (mem_children.mpr ⟨ob, hb, .inl hab⟩) (.refl _))⟩
    · exact hrooted a o ha hs
  · obtain ⟨w, ow, hw, hpw⟩ := hi.operOwned p q hq
    have hws : ¬ s.IsSplit w := fun h => by
      simp only [IsSplit, typeOf, hw, Option.map_some', Option.some.injEq] at h
      cases hv : ow.val <;> simp_all [PyObj.type, PyVal.type, PyVal.whatOps, IterType.type]
    exact .inr ⟨w, ow, hw, PyVal.mem_operPtrs_of_mem_whatOps hpw, hrooted w ow hw hws⟩

/-- Every memo value is reached from a root. -/
theorem memo_rooted {s : PMState} (hi : Inv s []) : ∀ m ∈ s.memoVals, ∃ r ∈ s.roots, Reach s r m := by
  intro m hm
  have hpos : 0 < s.objRefCount m + ([] : List Addr).count m := by
    have := List.count_pos_iff.mpr hm
    simp only [objRefCount]; omega
  obtain ⟨o, ho⟩ := hi.live_of_count hpos
  obtain ⟨r, hr, hpath⟩ := hi.rooted m o ho (hi.memoNoSplit m hm)
  exact ⟨r, by simpa using hr, hpath.toReach⟩

theorem get_bumpObj (t : PMState) (m a : Addr) (d : Int) :
    (t.bumpObj m d).objs.get a = (t.objs.get a).map fun o => { o with refcnt := o.refcnt + if m = a then d else 0 } := by
  simp only [bumpObj, modObj, Store.get_modify]
  split_ifs <;> cases t.objs.get a <;> simp

/-- `empty_memo`: each memo value is reached from a root, so `py_obj_free` on it finds it
    live and only lowers its count: no cell is freed, no payload touched. -/
theorem emptyMemo_releases {β : Type} (R : List Addr) :
    ∀ (l : List (β × Option Addr)) (t : PMState), Pending t (l.filterMap Prod.snd ++ R) [] →
      (∀ m ∈ l.filterMap Prod.snd, ∃ r ∈ R, Reach t r m) →
      l.foldlM (fun s e => pyObjFreeChecked s.freeFuel s e.2) t = some (l.foldl (fun s e => s.release e.2) t) ∧
        Pending (l.foldl (fun s e => s.release e.2) t) R [] ∧
        (∀ a, (l.foldl (fun s e => s.release e.2) t).objs.get a =
          (t.objs.get a).map fun o => { o with refcnt := o.refcnt - (l.filterMap Prod.snd).count a }) ∧
        (l.foldl (fun s e => s.release e.2) t).opers = t.opers
  | [], t, hp, _ => ⟨rfl, hp, fun a => by
      show t.objs.get a = _
      cases t.objs.get a with
      | none => rfl
      | some o => cases o; simp, rfl⟩
  | ⟨_, none⟩ :: l, t, hp, hr => by
    simpa [release] using emptyMemo_releases R l t hp hr
  | ⟨_, some m⟩ :: l, t, hp, hr => by
    simp only [List.filterMap_cons, List.cons_append, List.mem_cons, forall_eq_or_imp] at hp hr ⊢
    obtain ⟨⟨r, hrR, hrm⟩, hr⟩ := hr
    obtain ⟨o, hm⟩ := hp.live (List.mem_cons_self _ _)
    have hpos := hp.pos_of_reach hm (List.mem_append_right _ hrR) hrm
    have hch : (t.bumpObj m (-1)).children = t.children :=
      @children_modObj t (fun o => { o with refcnt := o.refcnt + -1 }) (fun _ => rfl) m
    have hchk : pyObjFreeChecked t.freeFuel t (some m) = some (t.bumpObj m (-1)) := by
      simp [freeFuel, pyObjFreeChecked, hm, not_le.mpr hpos]
    obtain ⟨h₁, h₂, h₃, h₄⟩ := emptyMemo_releases R l (t.bumpObj m (-1))
      (hp.dropRooted hm (List.mem_append_right _ hrR) hrm)
      fun m' hm' => (hr m' hm').imp fun _ ⟨hr, hp⟩ => ⟨hr, Reach.of_children hch hp⟩
    simp only [List.foldlM_cons, List.foldl_cons, hchk, Option.bind_eq_bind, Option.some_bind,
      release_of_pos hm hpos]
    refine ⟨h₁, h₂, fun a => ?_, h₄⟩
    rw [h₃, get_bumpObj, Option.map_map]
    congr 1
    funext o
    simp only [Function.comp_apply, List.count_cons, beq_iff_eq]
    split_ifs <;> simp only [PyObj.mk.injEq, and_true, true_and] <;> push_cast <;> omega

/-- `metastack_deep_free` (and the two other `list_free_with` on a stack): every element
    released, no freed cell touched. -/
theorem metastackDeepFree_releases :
    ∀ (l : List Addr) (t : PMState) (L : List Addr), Pending t (l ++ L) [] →
      metastackDeepFreeChecked t l = some (metastackDeepFree t l) ∧ Pending (metastackDeepFree t l) L []
  | [], _, _, hp => ⟨rfl, hp⟩
  | a :: l, t, L, hp => by
    obtain ⟨hT, hP, -⟩ := (releases_all t.freeFuel).1 [] t (some a) (l ++ L)
      (fun _ => t.linked_lt_freeFuel) hp
    show (pyObjDeepFreeChecked t.freeFuel t (some a) >>= fun s => metastackDeepFreeChecked s l) = _ ∧ _
    rw [hT]
    exact metastackDeepFree_releases l _ L hP

theorem frames_releases :
    ∀ (ls : List (List Addr)) (t : PMState) (L : List Addr), Pending t (ls.flatten ++ L) [] →
      ls.foldlM metastackDeepFreeChecked t = some (ls.foldl metastackDeepFree t) ∧
        Pending (ls.foldl metastackDeepFree t) L []
  | [], _, _, hp => ⟨rfl, hp⟩
  | l :: ls, t, L, hp => by
    obtain ⟨h₁, h₂⟩ := metastackDeepFree_releases l t (ls.flatten ++ L) (by simpa using hp)
    simp only [List.foldlM_cons, List.foldl_cons, h₁, Option.bind_eq_bind, Option.some_bind]
    exact frames_releases ls _ L h₂

/-- After the frees: nothing pending means no cell holds a pointer, so no cell has an
    owner; a live cell would have a count below zero. -/
theorem Pending.all_freed {s : PMState} (hp : Pending s [] []) (ho : s.Owned) :
    (∀ a, s.objs.get a = none) ∧ ∀ p, s.opers.get p = none := by
  have hnc : ∀ b, ¬ s.Covered [] [] b := fun b ⟨e, he, _⟩ => by simp at he
  have hobj : ∀ a o, s.objs.get a = some o → o.val.objPtrs = [] ∧ o.val.operPtrs = [] :=
    fun a o ha => PyVal.ptrCount_eq_zero.mp (by_contra fun hz => hnc a (hp.reach a o ha hz))
  have hop : ∀ p q, s.opers.get p = some q → q.stack = [] := fun p q hq => by_contra fun hne =>
    (hp.reachOper p q hq hne).elim (by simp) fun ⟨b, _, _, _, hc⟩ => hnc b hc
  refine ⟨fun a => ?_, fun p => ?_⟩
  · cases ha : s.objs.get a with
    | none => rfl
    | some o =>
      have h₁ : s.objs.countIn (fun o => o.val.objPtrs) a = 0 :=
        Store.countIn_eq_zero _ fun b ob hb => by simp [(hobj b ob hb).1]
      have h₂ : s.opers.countIn PyOper.stack a = 0 :=
        Store.countIn_eq_zero _ fun p q hq => by simp [hop p q hq]
      have := hp.objCount a
      have := ho.1 a o ha
      simp only [heapRefs, h₁, h₂, Store.held, ha, Option.map_some', Option.getD_some, List.count_nil] at *
      omega
  · cases hq : s.opers.get p with
    | none => rfl
    | some q =>
      have h₁ : s.operRefCount p = 0 := Store.countIn_eq_zero _ fun b ob hb => by simp [(hobj b ob hb).2]
      have := hp.operCount p
      have := ho.2 p q hq
      simp only [h₁, Store.held, hq, Option.map_some', Option.getD_some, List.count_nil] at *
      omega

/-- The whole of `empty_state` from the pending owners of a reachable state. -/
theorem emptyState_releases (s : PMState) (hp : Pending s (s.memoVals ++ s.roots) [])
    (hr : ∀ m ∈ s.memoVals, ∃ r ∈ s.roots, Reach s r m) :
    emptyStateChecked s = some (emptyState s) ∧ Pending (emptyState s) [] [] := by
  obtain ⟨h₁, hp₁, -, -⟩ := emptyMemo_releases s.roots s.memo { s with memo := [] } (hp.of_heaps rfl rfl) hr
  obtain ⟨-, -, -, hs₁⟩ := emptyMemo_bounded s 0
  obtain ⟨st₁, ms₁, ps₁⟩ := hs₁.stacks
  change _ = some (emptyMemo s) at h₁
  change Pending (emptyMemo s) _ _ at hp₁
  simp only [emptyStateChecked, emptyState, Option.bind_eq_bind, h₁, Option.some_bind]
  generalize emptyMemo s = s₁ at hp₁ st₁ ms₁ ps₁ ⊢
  obtain ⟨h₂, hp₂⟩ := metastackDeepFree_releases s₁.stack s₁ (s.metastack.flatten ++ s.popstack)
    (by rw [st₁]; simpa only [roots, List.append_assoc] using hp₁)
  obtain ⟨-, -, -, hs₂⟩ := metastackDeepFree_bounded s₁.stack s₁ 0
  obtain ⟨-, ms₂, ps₂⟩ := hs₂.stacks
  simp only [h₂, Option.some_bind]
  generalize metastackDeepFree s₁ s₁.stack = s₂ at hp₂ ms₂ ps₂ ⊢
  obtain ⟨h₃, hp₃⟩ := frames_releases s₂.metastack { s₂ with stack := [] } s.popstack
    (by rw [ms₂, ms₁]; exact hp₂.of_heaps rfl rfl)
  obtain ⟨-, -, -, hs₃⟩ := frames_bounded s₂.metastack { s₂ with stack := [] } 0
  obtain ⟨-, -, ps₃⟩ := hs₃.stacks
  simp only [h₃, Option.some_bind]
  generalize s₂.metastack.foldl metastackDeepFree { s₂ with stack := [] } = s₃ at hp₃ ps₃ ⊢
  obtain ⟨h₄, hp₄⟩ := metastackDeepFree_releases s₃.popstack { s₃ with metastack := [] } []
    (by rw [show s₃.popstack = s.popstack from ps₃.trans (ps₂.trans ps₁), List.append_nil]
        exact hp₃.of_heaps rfl rfl)
  simp only [h₄, Option.some_bind]
  exact ⟨rfl, hp₄.of_heaps rfl rfl⟩

theorem keepsOwned_emptyMemo (s : PMState) : KeepsOwned s (emptyMemo s) :=
  (KeepsOwned.of_heaps rfl rfl).trans
    (KeepsOwned.foldl (fun s (e : Nat × Option Addr) => keepsOwned_release s e.2) s.memo { s with memo := [] })

/-- `empty_state` leaves every count as it found it or lowered to a freed cell. -/
theorem keepsOwned_emptyState (s : PMState) : KeepsOwned s (emptyState s) := by
  have hm : ∀ t l, KeepsOwned t (metastackDeepFree t l) := fun t l =>
    KeepsOwned.foldl (fun s a => (keepsOwned_frees _).2.1 s (some a)) l t
  have h₁ := keepsOwned_emptyMemo s
  unfold emptyState
  dsimp only
  generalize emptyMemo s = s₁ at h₁
  refine h₁.trans ((hm s₁ s₁.stack).trans ?_)
  generalize metastackDeepFree s₁ s₁.stack = s₂
  exact (KeepsOwned.foldl hm s₂.metastack { s₂ with stack := [] }).trans (hm _ _)

/-- `empty_state` from pending owners on an owned state: no freed cell touched, and
    every cell freed. -/
theorem teardown_of_pending (s : PMState) (hp : Pending s (s.memoVals ++ s.roots) [])
    (hr : ∀ m ∈ s.memoVals, ∃ r ∈ s.roots, Reach s r m) (ho : s.Owned) :
    emptyStateChecked s = some (emptyState s) ∧
      (∀ a, (emptyState s).objs.get a = none) ∧ ∀ p, (emptyState s).opers.get p = none :=
  let ⟨h₁, h₂⟩ := emptyState_releases s hp hr
  ⟨h₁, h₂.all_freed (ho.keep (keepsOwned_emptyState s))⟩

/-- `empty_state` on a reachable state touches no freed cell: every object and oper
    that one of its frees reads, writes or frees is live at that point, so the C code
    never reads freed memory and never frees a cell twice. -/
theorem emptyState_never_reads_freed (c : RCore) (s : PMState) (hs : Reachable c s) :
    emptyStateChecked s = some (emptyState s) :=
  (teardown_of_pending s (pending_of_inv hs.inv hs.owned) (memo_rooted hs.inv) hs.owned).1

theorem emptyState_never_reads_freed_self_list :
    ∃ s, execRun .plain (initState 0) selfListOps = some s ∧ emptyStateChecked s = some (emptyState s) :=
  ⟨_, rfl, emptyState_never_reads_freed .plain _
    (Reachable.of_plainRun (show execRun .plain (initState 0) selfListOps = _ from rfl))⟩

/-- `empty_state` on a reachable state leaks nothing: afterwards every object and every
    oper is freed. -/
theorem emptyState_frees_every_cell (c : RCore) (s : PMState) (hs : Reachable c s) :
    (∀ a, (emptyState s).objs.get a = none) ∧ ∀ p, (emptyState s).opers.get p = none :=
  (teardown_of_pending s (pending_of_inv hs.inv hs.owned) (memo_rooted hs.inv) hs.owned).2

theorem emptyState_frees_every_cell_self_list :
    ∃ s, execRun .plain (initState 0) selfListOps = some s ∧
      (∀ a, (emptyState s).objs.get a = none) ∧ ∀ p, (emptyState s).opers.get p = none :=
  ⟨_, rfl, emptyState_frees_every_cell .plain _
    (Reachable.of_plainRun (show execRun .plain (initState 0) selfListOps = _ from rfl))⟩

/-- `empty_memo` on a reachable state frees nothing: each object only loses the
    references the memo held, and the opers are untouched; the graph the renderer walks
    after `run_pvm` is the one the handlers built. -/
theorem emptyMemo_keeps_graph (c : RCore) (s : PMState) (hs : Reachable c s) :
    (∀ a, (emptyMemo s).objs.get a =
      (s.objs.get a).map fun o => { o with refcnt := o.refcnt - s.memoVals.count a }) ∧
      (emptyMemo s).opers = s.opers :=
  let ⟨_, _, h₃, h₄⟩ := emptyMemo_releases s.roots s.memo { s with memo := [] }
    ((pending_of_inv hs.inv hs.owned).of_heaps rfl rfl) (memo_rooted hs.inv)
  ⟨h₃, h₄⟩

theorem emptyMemo_keeps_graph_self_list :
    ∃ s, execRun .plain (initState 0) selfListOps = some s ∧
      (∀ a, (emptyMemo s).objs.get a =
        (s.objs.get a).map fun o => { o with refcnt := o.refcnt - s.memoVals.count a }) ∧
        (emptyMemo s).opers = s.opers :=
  ⟨_, rfl, emptyMemo_keeps_graph .plain _
    (Reachable.of_plainRun (show execRun .plain (initState 0) selfListOps = _ from rfl))⟩

/-- `run_pvm`'s loop keeps the invariant and the counts' signs. -/
theorem runLoop_sound (c : RCore) :
    ∀ (ops : List (PyOp × RAnalOp)) (s s' : PMState), Inv s [] → s.Owned →
      runLoop c s ops = (true, s') → Inv s' [] ∧ s'.Owned
  | [], s, s', hi, ho, h => by cases h; exact ⟨hi, ho⟩
  | (code, op) :: rest, s, s', hi, ho, h => by
    unfold runLoop at h
    split_ifs at h
    · cases h; exact ⟨hi, ho⟩
    rcases he : execOp c s op code with ⟨_ | _, s₁⟩ <;> simp only [he] at h
    · cases h
    have hi₁ := execOp_inv hi c op code (by rw [he])
    have ho₁ := ho.keep (keepsOwned_execOp c s op code)
    rw [he] at hi₁ ho₁
    exact runLoop_sound c rest _ s' (hi₁.advance op.size) ⟨ho₁.1, ho₁.2⟩ h

/-- `pickle_dec`'s teardown after a successful `run_pvm`: the memo emptied by `run_pvm`,
    then `empty_state` (whose own `empty_memo` finds the memo empty) frees every cell and
    touches no freed one. -/
theorem pickleDec_frees_after_run (c : RCore) (s₀ s : PMState) (ops : List (PyOp × RAnalOp))
    (hinit : initMachineState c = some s₀) (h : runPvm c { s₀ with breakOnStop := true } ops = (true, s)) :
    emptyStateChecked s = some (emptyState s) ∧
      (∀ a, (emptyState s).objs.get a = none) ∧ ∀ p, (emptyState s).opers.get p = none := by
  have hs₀ := Reachable.init hinit
  have hi₀ := hs₀.inv
  have ho₀ := hs₀.owned
  unfold runPvm at h
  rcases hl : runLoop c { s₀ with breakOnStop := true } ops with ⟨_ | _, t⟩ <;>
    simp only [hl, Prod.mk.injEq, true_and, Bool.false_eq_true, false_and] at h
  subst h
  obtain ⟨hi, ho⟩ := runLoop_sound c ops { s₀ with breakOnStop := true } t
    (hi₀.control s₀.offset s₀.ver true) ⟨ho₀.1, ho₀.2⟩ hl
  obtain ⟨-, hp, -, -⟩ := emptyMemo_releases t.roots t.memo { t with memo := [] }
    ((pending_of_inv hi ho).of_heaps rfl rfl) (memo_rooted hi)
  obtain ⟨-, -, -, ⟨objs, opers, heq⟩, -⟩ := emptyMemo_bounded t 0
  have hmemo : (emptyMemo t).memoVals = [] := by rw [heq]; rfl
  have hroots : (emptyMemo t).roots = t.roots := by rw [heq]; rfl
  refine teardown_of_pending _ ?_ (by simp [hmemo]) (ho.keep (keepsOwned_emptyMemo t))
  rw [hmemo, hroots]
  exact hp

theorem pickleDec_frees_after_run_self_list :
    ∃ s, runPvm .plain { initState 0 with breakOnStop := true } selfListOps = (true, s) ∧
      emptyStateChecked s = some (emptyState s) ∧
        (∀ a, (emptyState s).objs.get a = none) ∧ ∀ p, (emptyState s).opers.get p = none :=
  ⟨_, rfl, pickleDec_frees_after_run .plain (initState 0) _ selfListOps rfl rfl⟩

end Teardown

end PickleDec
