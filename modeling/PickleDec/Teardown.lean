import PickleDec.Release

/-!
# `empty_state` terminates

`pickle_dec` ends with `empty_state` whatever `run_pvm` returned: `empty_memo`, then
`py_obj_deep_free` on every object of the VM stack, of each metastack frame and of the
pop stack. The frees recurse through an object graph that may be cyclic, and are
modelled with fuel (`freeFuel`, one more than the number of cells).

Every free detaches the owning pointers of the cell it enters before it recurses through
the saved list: `py_obj_free_internal` nulls `py_iter` (through `py_what`, the same
field), `py_what`, `reduce` and the `py_func` fields, the oper frees null `stack`.
So the cells that still hold an owning pointer (`linked`) are one fewer at every nested
call, and there are fewer of them than `freeFuel`.

The counted frees are the same recursion with two additions: a call that the fuel
does not reach is reported (`none`), and every call made on a pointer is counted. The
counted teardown never runs out, returns the model's result, and makes no more calls
than there were owning pointers, in the heaps and on the stacks and memo
(`emptyState_terminates`): no owning edge is followed twice.
-/

set_option autoImplicit false

namespace PickleDec

open PMState

/-! ## Weights of a store -/

namespace Store

variable {α : Type} (w : α → Nat)

/-- The sum of `w` over the live cells of a store. -/
def total (s : Store α) : Nat := (s.map fun c => (c.map w).getD 0).sum

theorem total_modify (s : Store α) (a : Nat) (f : α → α) :
    total w (s.modify a f) + ((s.get a).map w).getD 0 =
      total w s + ((s.get a).map (w ∘ f)).getD 0 := by
  cases h : s.get a with
  | none => simp [modify, h]
  | some y =>
    have hlt := lt_of_get h
    have := sum_map_set (fun c => (c.map w).getD 0) s a (some (f y)) hlt
    have hy : s[a] = some y := by
      simpa [get, List.getElem?_eq_getElem hlt] using h
    simpa [total, modify_eq_set h, set, hy] using this

theorem total_modify_of (s : Store α) (a : Nat) (f : α → α) (hf : ∀ y, w (f y) = w y) :
    total w (s.modify a f) = total w s := by
  have := total_modify w s a f
  cases h : s.get a <;> simp_all

theorem total_free_le (s : Store α) (a : Nat) : total w (s.free a) ≤ total w s := by
  by_cases h : a < s.length
  · have := sum_map_set (fun c => (c.map w).getD 0) s a none h
    simp only [total, free, Option.map_none', Option.getD_none, Nat.add_zero] at this ⊢
    omega
  · simp [free, List.set_eq_of_length_le (Nat.le_of_not_lt h)]

theorem total_le_length (hw : ∀ y, w y ≤ 1) : ∀ s : Store α, total w s ≤ s.length
  | [] => le_rfl
  | c :: s => by
    have := total_le_length hw s
    cases c with
    | none => simp only [total, List.map_cons, Option.map_none', Option.getD_none, List.sum_cons,
        List.length_cons] at this ⊢; omega
    | some y => simp only [total, List.map_cons, Option.map_some', Option.getD_some, List.sum_cons,
        List.length_cons] at this ⊢; have := hw y; omega

end Store

/-! ## Owning pointers -/

/-- The owning pointers a payload holds. -/
def PyVal.ptrCount (v : PyVal) : Nat := v.objPtrs.length + v.operPtrs.length

@[simp] theorem PyVal.ptrCount_iter (t : IterType) (items : List Addr) :
    (PyVal.iter t items).ptrCount = items.length := by simp [PyVal.ptrCount]

@[simp] theorem PyVal.ptrCount_what (ops : List OAddr) : (PyVal.what ops).ptrCount = ops.length := by
  simp [PyVal.ptrCount]

@[simp] theorem PyVal.ptrCount_split (r : Option OAddr) :
    (PyVal.split r).ptrCount = r.toList.length := by simp [PyVal.ptrCount]

@[simp] theorem PyVal.ptrCount_func (m n : Option Addr) :
    (PyVal.func m n).ptrCount = m.toList.length + n.toList.length := by
  simp [PyVal.ptrCount, PyVal.objPtrs, PyVal.operPtrs]

@[simp] theorem PyVal.ptrCount_nulled (v : PyVal) : v.nulled.ptrCount = 0 := by
  cases v <;> rfl

namespace PMState

/-- The owning pointers held in the heaps: payloads and oper argument lists. -/
def ptrs (s : PMState) : Nat :=
  s.objs.total (·.val.ptrCount) + s.opers.total (·.stack.length)

/-- The cells that still hold an owning pointer. -/
def linked (s : PMState) : Nat :=
  s.objs.total (min 1 ·.val.ptrCount) + s.opers.total (min 1 ·.stack.length)

/-- The owning pointers outside the heaps: the memo's values and the three stacks. -/
def rootPtrs (s : PMState) : Nat :=
  (s.memo.filterMap Prod.snd).length + s.stack.length + (s.metastack.map List.length).sum +
    s.popstack.length

theorem linked_lt_freeFuel (s : PMState) : s.linked < s.freeFuel := by
  have h₁ := Store.total_le_length (min 1 ·.val.ptrCount) (fun _ => min_le_left _ _) s.objs
  have h₂ := Store.total_le_length (min 1 ·.stack.length) (fun _ => min_le_left _ _) s.opers
  simp only [linked, freeFuel]
  omega

/-- `s'` is `s` with pointers detached and cells freed: only the heaps change, they keep
    their length, and no more cells hold pointers. -/
def Shrinks (s s' : PMState) : Prop :=
  HeapsOnly s s' ∧ s'.freeFuel = s.freeFuel ∧ s'.linked ≤ s.linked

theorem Shrinks.refl (s : PMState) : Shrinks s s := ⟨.refl s, rfl, le_rfl⟩

theorem Shrinks.trans {s₁ s₂ s₃ : PMState} (h₁ : Shrinks s₁ s₂) (h₂ : Shrinks s₂ s₃) :
    Shrinks s₁ s₃ :=
  ⟨h₁.1.trans h₂.1, h₂.2.1.trans h₁.2.1, h₂.2.2.trans h₁.2.2⟩

theorem Shrinks.stacks {s s' : PMState} (h : Shrinks s s') :
    s'.stack = s.stack ∧ s'.metastack = s.metastack ∧ s'.popstack = s.popstack := by
  obtain ⟨_, _, rfl⟩ := h.1; exact ⟨rfl, rfl, rfl⟩

/-! ### What each step of a free does to the counts -/

section Steps

variable (s : PMState)

theorem shrinks_modObj (a : Addr) (f : PyObj → PyObj) (hf : ∀ o, (f o).val = o.val) :
    Shrinks s (s.modObj a f) ∧ (s.modObj a f).ptrs = s.ptrs := by
  have h₁ := Store.total_modify_of (·.val.ptrCount) s.objs a f fun o => by simp only [hf]
  have h₂ := Store.total_modify_of (min 1 ·.val.ptrCount) s.objs a f fun o => by simp only [hf]
  refine ⟨⟨⟨_, _, rfl⟩, by simp [freeFuel, modObj], ?_⟩, ?_⟩ <;>
    simp only [linked, ptrs, modObj, h₁, h₂, le_rfl]

theorem shrinks_modOper (p : OAddr) (f : PyOper → PyOper) (hf : ∀ q, (f q).stack = q.stack) :
    Shrinks s (s.modOper p f) ∧ (s.modOper p f).ptrs = s.ptrs := by
  have h₁ := Store.total_modify_of (·.stack.length) s.opers p f fun q => by simp only [hf]
  have h₂ := Store.total_modify_of (min 1 ·.stack.length) s.opers p f fun q => by simp only [hf]
  refine ⟨⟨⟨_, _, rfl⟩, by simp [freeFuel, modOper], ?_⟩, ?_⟩ <;>
    simp only [linked, ptrs, modOper, h₁, h₂, le_rfl]

theorem shrinks_freeObj (a : Addr) :
    Shrinks s { s with objs := s.objs.free a } ∧ ({ s with objs := s.objs.free a } : PMState).ptrs ≤ s.ptrs :=
  ⟨⟨⟨_, _, rfl⟩, by simp [freeFuel], Nat.add_le_add_right (Store.total_free_le _ _ _) _⟩,
    Nat.add_le_add_right (Store.total_free_le _ _ _) _⟩

theorem shrinks_freeOper (p : OAddr) :
    Shrinks s { s with opers := s.opers.free p } ∧ ({ s with opers := s.opers.free p } : PMState).ptrs ≤ s.ptrs :=
  ⟨⟨⟨_, _, rfl⟩, by simp [freeFuel], Nat.add_le_add_left (Store.total_free_le _ _ _) _⟩,
    Nat.add_le_add_left (Store.total_free_le _ _ _) _⟩

theorem shrinks_releaseObj (a : Addr) (o : PyObj) :
    Shrinks s (releaseObj s a o) ∧ (releaseObj s a o).ptrs ≤ s.ptrs := by
  unfold releaseObj
  split
  · exact shrinks_freeObj s a
  · exact ⟨.refl s, le_rfl⟩

variable {s}

/-- `py_obj_free_internal`'s nulling: the cell's pointers leave the heap. -/
theorem shrinks_null {a : Addr} {o : PyObj} (h : s.objs.get a = some o) :
    Shrinks s (s.modObj a fun o => { o with varname := none, val := o.val.nulled }) ∧
      (s.modObj a fun o => { o with varname := none, val := o.val.nulled }).ptrs + o.val.ptrCount =
        s.ptrs ∧
      (s.modObj a fun o => { o with varname := none, val := o.val.nulled }).linked +
        min 1 o.val.ptrCount = s.linked := by
  have h₁ := Store.total_modify (·.val.ptrCount) s.objs a
    fun o => { o with varname := none, val := o.val.nulled }
  have h₂ := Store.total_modify (min 1 ·.val.ptrCount) s.objs a
    fun o => { o with varname := none, val := o.val.nulled }
  simp only [h, Option.map_some', Option.getD_some, Function.comp_apply, PyVal.ptrCount_nulled,
    min_eq_right (Nat.zero_le 1)] at h₁ h₂
  refine ⟨⟨⟨_, _, rfl⟩, by simp [freeFuel, modObj], ?_⟩, ?_, ?_⟩ <;>
    simp only [linked, ptrs, modObj] <;> omega

/-- The oper frees' nulling of `stack`. -/
theorem shrinks_clear {p : OAddr} {q : PyOper} (h : s.opers.get p = some q) :
    Shrinks s (s.modOper p fun q => { q with stack := [] }) ∧
      (s.modOper p fun q => { q with stack := [] }).ptrs + q.stack.length = s.ptrs ∧
      (s.modOper p fun q => { q with stack := [] }).linked + min 1 q.stack.length = s.linked := by
  have h₁ := Store.total_modify (·.stack.length) s.opers p fun q => { q with stack := [] }
  have h₂ := Store.total_modify (min 1 ·.stack.length) s.opers p fun q => { q with stack := [] }
  simp only [h, Option.map_some', Option.getD_some, Function.comp_apply, List.length_nil,
    min_eq_right (Nat.zero_le 1)] at h₁ h₂
  refine ⟨⟨⟨_, _, rfl⟩, by simp [freeFuel, modOper], ?_⟩, ?_, ?_⟩ <;>
    simp only [linked, ptrs, modOper] <;> omega

end Steps

end PMState

/-! ## The counted frees -/

/-- One call of a counted free: run `T`, add the calls it made to the running count. -/
def countedStep (T : PMState → Option Nat → Option (PMState × Nat)) (acc : PMState × Nat)
    (x : Option Nat) : Option (PMState × Nat) :=
  (T acc.1 x).map fun r => (r.1, acc.2 + r.2)

/-- `py_obj_free_internal`, counting the calls it makes and failing where one of them
    does. -/
def pyObjFreeInternalCounted (objF : PMState → Option Addr → Option (PMState × Nat))
    (opF : PMState → Option OAddr → Option (PMState × Nat)) (s : PMState) (a : Addr) :
    Option (PMState × Nat) :=
  match s.objs.get a with
  | none => some (s, 0)
  | some o =>
    let s := s.modObj a fun o => { o with varname := none, val := o.val.nulled }
    match o.val with
    | .iter _ items => items.foldlM (fun acc x => countedStep objF acc (some x)) (s, 0)
    | .split r => opF s r
    | .func m n => objF s n >>= fun acc => countedStep objF acc m
    | .what ops => ops.foldlM (fun acc p => countedStep opF acc (some p)) (s, 0)
    | _ => some (s, 0)

mutual

/-- `py_obj_free`, counted: every call on a pointer counts one, and a call the fuel
    does not reach is `none`. -/
def pyObjFreeCounted : Nat → PMState → Option Addr → Option (PMState × Nat)
  | _, s, none => some (s, 0)
  | 0, _, some _ => none
  | n + 1, s, some a =>
    match s.objs.get a with
    | none => some (s, 1)
    | some o =>
      let s := s.bumpObj a (-1)
      if o.refcnt ≤ 0 then
        (pyObjFreeInternalCounted (pyObjFreeCounted n) (pyopFreeCounted n) s a).map fun r =>
          ({ r.1 with objs := r.1.objs.free a }, r.2 + 1)
      else some (s, 1)

/-- `py_obj_deep_free`, counted. -/
def pyObjDeepFreeCounted : Nat → PMState → Option Addr → Option (PMState × Nat)
  | _, s, none => some (s, 0)
  | 0, _, some _ => none
  | n + 1, s, some a =>
    (pyObjFreeInternalCounted (pyObjDeepFreeCounted n) (pyopDeepFreeCounted n) s a).map fun r =>
      (match r.1.objs.get a with
        | none => r.1
        | some o => releaseObj (r.1.bumpObj a (-1)) a o, r.2 + 1)

/-- `pyop_free`, counted. -/
def pyopFreeCounted : Nat → PMState → Option OAddr → Option (PMState × Nat)
  | _, s, none => some (s, 0)
  | 0, _, some _ => none
  | n + 1, s, some p =>
    match s.opers.get p with
    | none => some (s, 1)
    | some q =>
      let s := s.modOper p fun q => { q with refcnt := q.refcnt - 1 }
      if q.refcnt ≤ 0 then
        (q.stack.foldlM (fun acc x => countedStep (pyObjFreeCounted n) acc (some x))
            (s.modOper p fun q => { q with stack := [] }, 0)).map fun r =>
          ({ r.1 with opers := r.1.opers.free p }, r.2 + 1)
      else some (s, 1)

/-- `pyop_deep_free`, counted. -/
def pyopDeepFreeCounted : Nat → PMState → Option OAddr → Option (PMState × Nat)
  | _, s, none => some (s, 0)
  | 0, _, some _ => none
  | n + 1, s, some p =>
    match s.opers.get p with
    | none => some (s, 1)
    | some q =>
      (q.stack.foldlM (fun acc x => countedStep (pyObjDeepFreeCounted n) acc (some x))
          (s.modOper p fun q => { q with stack := [] }, 0)).map fun r =>
        (match r.1.opers.get p with
          | none => r.1
          | some q' =>
            let s := r.1.modOper p fun q => { q with refcnt := q.refcnt - 1 }
            if q'.refcnt ≤ 0 then { s with opers := s.opers.free p } else s, r.2 + 1)

end

@[simp] theorem pyObjFreeCounted_none (n : Nat) (s : PMState) :
    pyObjFreeCounted n s none = some (s, 0) := by cases n <;> rfl

@[simp] theorem pyObjDeepFreeCounted_none (n : Nat) (s : PMState) :
    pyObjDeepFreeCounted n s none = some (s, 0) := by cases n <;> rfl

@[simp] theorem pyopFreeCounted_none (n : Nat) (s : PMState) :
    pyopFreeCounted n s none = some (s, 0) := by cases n <;> rfl

@[simp] theorem pyopDeepFreeCounted_none (n : Nat) (s : PMState) :
    pyopDeepFreeCounted n s none = some (s, 0) := by cases n <;> rfl

@[simp] theorem pyObjFree_none (n : Nat) (s : PMState) : pyObjFree n s none = s := by cases n <;> rfl

@[simp] theorem pyObjDeepFree_none (n : Nat) (s : PMState) : pyObjDeepFree n s none = s := by
  cases n <;> rfl

@[simp] theorem pyopFree_none (n : Nat) (s : PMState) : pyopFree n s none = s := by cases n <;> rfl

@[simp] theorem pyopDeepFree_none (n : Nat) (s : PMState) : pyopDeepFree n s none = s := by
  cases n <;> rfl

/-! ## The counted frees return the model's result -/

/-- On states where `Q` holds (for a call on a pointer), the counted `T` returns what `F`
    returns, with at most one call per pointer that left the heaps, plus one for its own
    argument, and `F` only shrinks the state. -/
def Bounded (Q : PMState → Prop) (T : PMState → Option Nat → Option (PMState × Nat))
    (F : PMState → Option Nat → PMState) : Prop :=
  ∀ s x, (x.isSome → Q s) → ∃ k, T s x = some (F s x, k) ∧
    k + (F s x).ptrs ≤ s.ptrs + x.toList.length ∧ Shrinks s (F s x)

/-- A fold of calls on pointers, as `list_free_with` and the payload loops make them. -/
theorem Bounded.foldlM {Q : PMState → Prop} (hQ : ∀ s s', Q s → Shrinks s s' → Q s')
    {T : PMState → Option Nat → Option (PMState × Nat)} {F : PMState → Option Nat → PMState}
    (h : Bounded Q T F) {β : Type} (g : β → Option Nat) :
    ∀ (l : List β) (s : PMState) (c : Nat), (l ≠ [] → Q s) → ∃ k,
      l.foldlM (fun acc b => countedStep T acc (g b)) (s, c) =
        some (l.foldl (fun s b => F s (g b)) s, c + k) ∧
      k + (l.foldl (fun s b => F s (g b)) s).ptrs ≤ s.ptrs + (l.filterMap g).length ∧
      Shrinks s (l.foldl (fun s b => F s (g b)) s)
  | [], s, c, _ => ⟨0, rfl, by simp, .refl s⟩
  | b :: l, s, c, hq => by
    have hs := hq (List.cons_ne_nil b l)
    obtain ⟨j, hj, hjp, hjs⟩ := h s (g b) fun _ => hs
    obtain ⟨k, hk, hkp, hks⟩ := Bounded.foldlM hQ h g l (F s (g b)) (c + j) fun _ => hQ s _ hs hjs
    have h₁ : countedStep T (s, c) (g b) = some (F s (g b), c + j) := by simp [countedStep, hj]
    refine ⟨j + k, ?_, ?_, hjs.trans hks⟩
    · simp only [List.foldlM_cons, List.foldl_cons, h₁]
      rw [← Nat.add_assoc]
      exact hk
    · rw [List.foldl_cons]
      cases hgb : g b <;> simp only [hgb, List.filterMap_cons, Option.toList, List.length_cons,
        List.length_nil] at hjp hkp ⊢ <;> omega

section Frees

variable {m : Nat}

theorem linked_lt_of_shrinks (s s' : PMState) (h : s.linked < m) (h' : Shrinks s s') :
    s'.linked < m :=
  lt_of_le_of_lt h'.2.2 h

/-- `py_obj_free_internal`: nulling the cell pays for every call it then makes. -/
theorem pyObjFreeInternal_bounded {objT opT : PMState → Option Nat → Option (PMState × Nat)}
    {objF opF : PMState → Option Nat → PMState}
    (hobj : Bounded (·.linked < m) objT objF) (hop : Bounded (·.linked < m) opT opF)
    {s : PMState} (a : Addr) (hs : s.linked ≤ m) :
    ∃ k, pyObjFreeInternalCounted objT opT s a = some (pyObjFreeInternal objF opF s a, k) ∧
      k + (pyObjFreeInternal objF opF s a).ptrs ≤ s.ptrs ∧
      Shrinks s (pyObjFreeInternal objF opF s a) := by
  unfold pyObjFreeInternalCounted pyObjFreeInternal
  cases ho : s.objs.get a with
  | none => exact ⟨0, rfl, by simp, .refl s⟩
  | some o =>
    obtain ⟨h₁, hp, hl⟩ := shrinks_null ho
    dsimp only
    generalize s.modObj a (fun o => { o with varname := none, val := o.val.nulled }) = s₁ at h₁ hp hl ⊢
    have hlt : 0 < o.val.ptrCount → s₁.linked < m := fun h => by omega
    cases hv : o.val <;> rw [hv] at hp hlt <;> dsimp only
    case iter t items =>
      obtain ⟨k, hk, hkp, hks⟩ := hobj.foldlM linked_lt_of_shrinks some items s₁ 0
        fun hne => hlt (by simpa using List.length_pos.mpr hne)
      rw [List.filterMap_some] at hkp
      rw [PyVal.ptrCount_iter] at hp
      exact ⟨k, by rw [hk, Nat.zero_add], hkp.trans hp.le, h₁.trans hks⟩
    case what ops =>
      obtain ⟨k, hk, hkp, hks⟩ := hop.foldlM linked_lt_of_shrinks some ops s₁ 0
        fun hne => hlt (by simpa using List.length_pos.mpr hne)
      rw [List.filterMap_some] at hkp
      rw [PyVal.ptrCount_what] at hp
      exact ⟨k, by rw [hk, Nat.zero_add], hkp.trans hp.le, h₁.trans hks⟩
    case split r =>
      obtain ⟨k, hk, hkp, hks⟩ := hop s₁ r fun h => hlt (by
        obtain ⟨p, rfl⟩ := Option.isSome_iff_exists.mp h; simp)
      rw [PyVal.ptrCount_split] at hp
      exact ⟨k, hk, hkp.trans hp.le, h₁.trans hks⟩
    case func mo na =>
      obtain ⟨i, hi, hip, his⟩ := hobj s₁ na fun h => hlt (by
        obtain ⟨p, rfl⟩ := Option.isSome_iff_exists.mp h; simp)
      obtain ⟨j, hj, hjp, hjs⟩ := hobj (objF s₁ na) mo fun h => linked_lt_of_shrinks _ _ (hlt (by
        obtain ⟨p, rfl⟩ := Option.isSome_iff_exists.mp h; simp)) his
      rw [PyVal.ptrCount_func] at hp
      exact ⟨i + j, by simp [hi, countedStep, hj], by omega, h₁.trans (his.trans hjs)⟩
    all_goals exact ⟨0, rfl, by simp [PyVal.ptrCount, PyVal.objPtrs, PyVal.operPtrs] at hp; omega, h₁⟩

theorem pyObjFree_bounded (hobj : Bounded (·.linked < m) (pyObjFreeCounted m) (pyObjFree m))
    (hop : Bounded (·.linked < m) (pyopFreeCounted m) (pyopFree m)) :
    Bounded (·.linked < m + 1) (pyObjFreeCounted (m + 1)) (pyObjFree (m + 1)) := by
  rintro s (_ | a) hq
  · exact ⟨0, by simp, by simp, .refl s⟩
  have hs : s.linked ≤ m := Nat.lt_succ_iff.mp (hq rfl)
  simp only [pyObjFreeCounted, pyObjFree]
  cases ho : s.objs.get a with
  | none => exact ⟨1, rfl, by simp [Nat.add_comm], .refl s⟩
  | some o =>
    have hb : Shrinks s (s.bumpObj a (-1)) ∧ (s.bumpObj a (-1)).ptrs = s.ptrs :=
      shrinks_modObj s a _ fun _ => rfl
    dsimp only
    split_ifs
    · obtain ⟨k, hk, hkp, hks⟩ := pyObjFreeInternal_bounded hobj hop a (hb.1.2.2.trans hs)
      obtain ⟨hf, hfp⟩ := shrinks_freeObj
        (pyObjFreeInternal (pyObjFree m) (pyopFree m) (s.bumpObj a (-1)) a) a
      exact ⟨k + 1, by rw [hk]; rfl, by simp only [Option.toList, List.length_singleton]; omega,
        hb.1.trans (hks.trans hf)⟩
    · exact ⟨1, rfl, by simp only [hb.2, Option.toList, List.length_singleton]; omega, hb.1⟩

theorem pyObjDeepFree_bounded
    (hobj : Bounded (·.linked < m) (pyObjDeepFreeCounted m) (pyObjDeepFree m))
    (hop : Bounded (·.linked < m) (pyopDeepFreeCounted m) (pyopDeepFree m)) :
    Bounded (·.linked < m + 1) (pyObjDeepFreeCounted (m + 1)) (pyObjDeepFree (m + 1)) := by
  rintro s (_ | a) hq
  · exact ⟨0, by simp, by simp, .refl s⟩
  obtain ⟨k, hk, hkp, hks⟩ := pyObjFreeInternal_bounded hobj hop a (Nat.lt_succ_iff.mp (hq rfl))
  simp only [pyObjDeepFreeCounted, pyObjDeepFree, hk, Option.map_some']
  generalize pyObjFreeInternal (pyObjDeepFree m) (pyopDeepFree m) s a = s₁ at hkp hks
  refine ⟨k + 1, rfl, ?_⟩
  split
  · exact ⟨by simp only [Option.toList, List.length_singleton]; omega, hks⟩
  · next o _ =>
    have hb : Shrinks s₁ (s₁.bumpObj a (-1)) ∧ (s₁.bumpObj a (-1)).ptrs = s₁.ptrs :=
      shrinks_modObj s₁ a _ fun _ => rfl
    obtain ⟨hr, hrp⟩ := shrinks_releaseObj (s₁.bumpObj a (-1)) a o
    exact ⟨by simp only [Option.toList, List.length_singleton]; omega, hks.trans (hb.1.trans hr)⟩

theorem pyopFree_bounded (hobj : Bounded (·.linked < m) (pyObjFreeCounted m) (pyObjFree m)) :
    Bounded (·.linked < m + 1) (pyopFreeCounted (m + 1)) (pyopFree (m + 1)) := by
  rintro s (_ | p) hq
  · exact ⟨0, by simp, by simp, .refl s⟩
  have hs : s.linked ≤ m := Nat.lt_succ_iff.mp (hq rfl)
  simp only [pyopFreeCounted, pyopFree]
  cases hp : s.opers.get p with
  | none => exact ⟨1, rfl, by simp [Nat.add_comm], .refl s⟩
  | some q =>
    let s₁ := s.modOper p fun q => { q with refcnt := q.refcnt - 1 }
    have hb : Shrinks s s₁ ∧ s₁.ptrs = s.ptrs := shrinks_modOper s p _ fun _ => rfl
    dsimp only
    split_ifs
    · obtain ⟨hc, hcp, hcl⟩ := shrinks_clear (s := s₁) (p := p)
        (q := { q with refcnt := q.refcnt - 1 }) (by simp [s₁, modOper, hp])
      dsimp only at hcp hcl
      obtain ⟨k, hk, hkp, hks⟩ := hobj.foldlM linked_lt_of_shrinks some q.stack
          (s₁.modOper p fun q => { q with stack := [] }) 0 fun hne => by
        have := List.length_pos.mpr hne
        have := hb.1.2.2
        omega
      rw [List.filterMap_some] at hkp
      rw [hk, Nat.zero_add]
      generalize q.stack.foldl (fun s x => pyObjFree m s (some x))
        (s₁.modOper p fun q => { q with stack := [] }) = s₂ at hkp hks
      obtain ⟨hf, hfp⟩ := shrinks_freeOper s₂ p
      exact ⟨k + 1, rfl, by simp only [Option.toList, List.length_singleton]; omega,
        hb.1.trans (hc.trans (hks.trans hf))⟩
    · exact ⟨1, rfl, by simp only [hb.2, Option.toList, List.length_singleton]; omega, hb.1⟩

theorem pyopDeepFree_bounded
    (hobj : Bounded (·.linked < m) (pyObjDeepFreeCounted m) (pyObjDeepFree m)) :
    Bounded (·.linked < m + 1) (pyopDeepFreeCounted (m + 1)) (pyopDeepFree (m + 1)) := by
  rintro s (_ | p) hq
  · exact ⟨0, by simp, by simp, .refl s⟩
  have hs : s.linked ≤ m := Nat.lt_succ_iff.mp (hq rfl)
  simp only [pyopDeepFreeCounted, pyopDeepFree]
  cases hp : s.opers.get p with
  | none => exact ⟨1, rfl, by simp [Nat.add_comm], .refl s⟩
  | some q =>
    obtain ⟨hc, hcp, hcl⟩ := shrinks_clear hp
    obtain ⟨k, hk, hkp, hks⟩ := hobj.foldlM linked_lt_of_shrinks some q.stack
        (s.modOper p fun q => { q with stack := [] }) 0 fun hne => by
      have := List.length_pos.mpr hne
      omega
    rw [List.filterMap_some] at hkp
    dsimp only
    rw [hk, Nat.zero_add]
    generalize q.stack.foldl (fun s x => pyObjDeepFree m s (some x))
      (s.modOper p fun q => { q with stack := [] }) = s₁ at hkp hks
    refine ⟨k + 1, rfl, ?_⟩
    split
    · exact ⟨by simp only [Option.toList, List.length_singleton]; omega, hc.trans hks⟩
    · next q' _ =>
      obtain ⟨hb, hbp⟩ := shrinks_modOper s₁ p (fun q => { q with refcnt := q.refcnt - 1 }) fun _ => rfl
      generalize s₁.modOper p (fun q => { q with refcnt := q.refcnt - 1 }) = s₂ at hb hbp ⊢
      split_ifs
      · obtain ⟨hf, hfp⟩ := shrinks_freeOper s₂ p
        exact ⟨by simp only [Option.toList, List.length_singleton]; omega,
          hc.trans (hks.trans (hb.trans hf))⟩
      · exact ⟨by simp only [hbp, Option.toList, List.length_singleton]; omega,
          hc.trans (hks.trans hb)⟩

end Frees

theorem bounded_zero {T : PMState → Option Nat → Option (PMState × Nat)}
    {F : PMState → Option Nat → PMState} (hT : ∀ s, T s none = some (s, 0)) (hF : ∀ s, F s none = s) :
    Bounded (·.linked < 0) T F := by
  rintro s (_ | a) hq
  · exact ⟨0, by rw [hT, hF], by simp [hF], by rw [hF]; exact .refl s⟩
  · exact absurd (hq rfl) (Nat.not_lt_zero _)

/-- At every fuel above the number of linked cells, every free is its counted twin: it
    never runs out of fuel. -/
theorem frees_bounded : ∀ n,
    Bounded (·.linked < n) (pyObjFreeCounted n) (pyObjFree n) ∧
    Bounded (·.linked < n) (pyObjDeepFreeCounted n) (pyObjDeepFree n) ∧
    Bounded (·.linked < n) (pyopFreeCounted n) (pyopFree n) ∧
    Bounded (·.linked < n) (pyopDeepFreeCounted n) (pyopDeepFree n)
  | 0 => ⟨bounded_zero (by simp) (by simp), bounded_zero (by simp) (by simp),
      bounded_zero (by simp) (by simp), bounded_zero (by simp) (by simp)⟩
  | m + 1 =>
    let ⟨h₁, h₂, h₃, h₄⟩ := frees_bounded m
    ⟨pyObjFree_bounded h₁ h₃, pyObjDeepFree_bounded h₂ h₄, pyopFree_bounded h₁, pyopDeepFree_bounded h₂⟩

/-- `py_obj_free` with the fuel every caller passes (`release`). -/
theorem release_bounded :
    Bounded (fun _ => True) (fun s => pyObjFreeCounted s.freeFuel s) (fun s => pyObjFree s.freeFuel s) :=
  fun s x _ => (frees_bounded s.freeFuel).1 s x fun _ => s.linked_lt_freeFuel

/-- `py_obj_deep_free` with the same fuel. -/
theorem deepFree_bounded :
    Bounded (fun _ => True) (fun s => pyObjDeepFreeCounted s.freeFuel s)
      (fun s => pyObjDeepFree s.freeFuel s) :=
  fun s x _ => (frees_bounded s.freeFuel).2.1 s x fun _ => s.linked_lt_freeFuel

/-! ## `empty_state` -/

/-- `metastack_deep_free`: `list_free_with (l, py_obj_deep_free)`, which `empty_state` also
    runs on the VM stack and the pop stack. -/
def metastackDeepFree (s : PMState) (l : List Addr) : PMState :=
  l.foldl (fun s a => pyObjDeepFree s.freeFuel s (some a)) s

/-- `empty_state`: `empty_memo`, then the deep frees of the VM stack, of every metastack
    frame and of the pop stack, each list nulled after. -/
def emptyState (s : PMState) : PMState :=
  let s := emptyMemo s
  let s := { metastackDeepFree s s.stack with stack := [] }
  let s := { s.metastack.foldl metastackDeepFree s with metastack := [] }
  { metastackDeepFree s s.popstack with popstack := [] }

/-- `metastack_deep_free`, counted. -/
def metastackDeepFreeCounted (acc : PMState × Nat) (l : List Addr) : Option (PMState × Nat) :=
  l.foldlM (fun acc a => countedStep (fun s => pyObjDeepFreeCounted s.freeFuel s) acc (some a)) acc

/-- `empty_state`, counted. -/
def emptyStateCounted (s : PMState) : Option (PMState × Nat) := do
  let (s, i) ← s.memo.foldlM (fun acc e => countedStep (fun s => pyObjFreeCounted s.freeFuel s) acc e.2)
    ({ s with memo := [] }, 0)
  let (s, i) ← metastackDeepFreeCounted (s, i) s.stack
  let (s, i) ← s.metastack.foldlM metastackDeepFreeCounted ({ s with stack := [] }, i)
  let (s, i) ← metastackDeepFreeCounted ({ s with metastack := [] }, i) s.popstack
  pure ({ s with popstack := [] }, i)

theorem emptyMemo_bounded (s : PMState) (c : Nat) : ∃ k,
    s.memo.foldlM (fun acc e => countedStep (fun s => pyObjFreeCounted s.freeFuel s) acc e.2)
      ({ s with memo := [] }, c) = some (emptyMemo s, c + k) ∧
    k + (emptyMemo s).ptrs ≤ s.ptrs + (s.memo.filterMap Prod.snd).length ∧
    Shrinks { s with memo := [] } (emptyMemo s) :=
  release_bounded.foldlM (fun _ _ _ _ => trivial) Prod.snd s.memo _ c fun _ => trivial

theorem metastackDeepFree_bounded (l : List Addr) (s : PMState) (c : Nat) : ∃ k,
    metastackDeepFreeCounted (s, c) l = some (metastackDeepFree s l, c + k) ∧
    k + (metastackDeepFree s l).ptrs ≤ s.ptrs + l.length ∧ Shrinks s (metastackDeepFree s l) := by
  simpa using deepFree_bounded.foldlM (fun _ _ _ _ => trivial) some l s c fun _ => trivial

theorem frames_bounded : ∀ (ls : List (List Addr)) (s : PMState) (c : Nat), ∃ k,
    ls.foldlM metastackDeepFreeCounted (s, c) = some (ls.foldl metastackDeepFree s, c + k) ∧
    k + (ls.foldl metastackDeepFree s).ptrs ≤ s.ptrs + (ls.map List.length).sum ∧
    Shrinks s (ls.foldl metastackDeepFree s)
  | [], s, c => ⟨0, rfl, by simp, .refl s⟩
  | l :: ls, s, c => by
    obtain ⟨j, hj, hjp, hjs⟩ := metastackDeepFree_bounded l s c
    obtain ⟨k, hk, hkp, hks⟩ := frames_bounded ls (metastackDeepFree s l) (c + j)
    refine ⟨j + k, ?_, ?_, hjs.trans hks⟩
    · simp only [List.foldlM_cons, List.foldl_cons, hj, Option.some_bind]
      rw [← Nat.add_assoc]
      exact hk
    · simp only [List.foldl_cons, List.map_cons, List.sum_cons]
      omega

theorem emptyState_terminates (s : PMState) : ∃ k,
    emptyStateCounted s = some (emptyState s, k) ∧ k + (emptyState s).ptrs ≤ s.ptrs + s.rootPtrs := by
  obtain ⟨k₁, h₁, hp₁, hs₁⟩ := emptyMemo_bounded s 0
  obtain ⟨st₁, ms₁, ps₁⟩ := hs₁.stacks
  simp only [emptyStateCounted, emptyState, Option.bind_eq_bind, h₁, Option.some_bind]
  generalize emptyMemo s = s₁ at hp₁ st₁ ms₁ ps₁ ⊢
  obtain ⟨k₂, h₂, hp₂, hs₂⟩ := metastackDeepFree_bounded s₁.stack s₁ (0 + k₁)
  obtain ⟨st₂, ms₂, ps₂⟩ := hs₂.stacks
  simp only [h₂, Option.some_bind]
  generalize metastackDeepFree s₁ s₁.stack = s₂ at hp₂ st₂ ms₂ ps₂ ⊢
  obtain ⟨k₃, h₃, hp₃, hs₃⟩ := frames_bounded s₂.metastack { s₂ with stack := [] } (0 + k₁ + k₂)
  obtain ⟨st₃, ms₃, ps₃⟩ := hs₃.stacks
  simp only [h₃, Option.some_bind]
  generalize s₂.metastack.foldl metastackDeepFree { s₂ with stack := [] } = s₃ at hp₃ st₃ ms₃ ps₃ ⊢
  obtain ⟨k₄, h₄, hp₄, -⟩ := metastackDeepFree_bounded s₃.popstack { s₃ with metastack := [] }
    (0 + k₁ + k₂ + k₃)
  simp only [h₄, Option.some_bind]
  generalize metastackDeepFree { s₃ with metastack := [] } s₃.popstack = s₄ at hp₄ ⊢
  refine ⟨0 + k₁ + k₂ + k₃ + k₄, rfl, ?_⟩
  show _ + s₄.ptrs ≤ _
  dsimp only at st₁ ms₁ ps₁ st₃ ms₃ ps₃ hp₃ hp₄
  have : (s₃.popstack).length = s.popstack.length := by rw [ps₃, ps₂, ps₁]
  have : (s₂.metastack.map List.length).sum = (s.metastack.map List.length).sum := by rw [ms₂, ms₁]
  have : ({ s₂ with stack := [] } : PMState).ptrs = s₂.ptrs := rfl
  have : ({ s₃ with metastack := [] } : PMState).ptrs = s₃.ptrs := rfl
  simp only [rootPtrs, st₁] at hp₂ ⊢
  omega

end PickleDec
