import PickleDec.Preserve

/-!
# No live cell without an owner

The ownership note of `pickle_dec.c` keeps a count one below the number of owners, and
frees a cell when a release finds the count at zero or below (`refcnt-- <= 0`). So a
live cell never counts fewer than one owner: every write of a count raises it, or
lowers it only where the release that lowers it frees the cell once it reaches zero.

`KeepsOwned s s'` says that no live cell of `s'` went into debt (a count below zero)
it was not in already. The frees keep it, and so does every handler, whether it gets
through or not (`keepsOwned_execOp`). With the counts of `Inv` this gives the heap of
every reachable state without garbage: every live object and every live oper has an
owning reference (`reachable_no_garbage`), also the `PY_SPLIT`s of the `REDUCE` pass,
which no root, memo slot or oper holds.
-/

set_option autoImplicit false

namespace PickleDec

open PMState

/-! ## Counts in a store -/

namespace Store

variable {α : Type} (rc : α → Int)

/-- Every live cell counts at least its owner: its count is not below zero. -/
def Solvent (s : Store α) : Prop := ∀ a y, s.get a = some y → 0 ≤ rc y

/-- A live cell of `t` with a count below zero was live in `s`, with a count no larger. -/
def NoNewDebt (s t : Store α) : Prop :=
  ∀ a y, t.get a = some y → rc y < 0 → ∃ x, s.get a = some x ∧ rc x ≤ rc y

variable {rc}

theorem NoNewDebt.refl (s : Store α) : NoNewDebt rc s s := fun _ y hy _ => ⟨y, hy, le_rfl⟩

theorem NoNewDebt.trans {s t u : Store α} (h₁ : NoNewDebt rc s t) (h₂ : NoNewDebt rc t u) :
    NoNewDebt rc s u := fun a z hz hneg => by
  obtain ⟨y, hy, hyz⟩ := h₂ a z hz hneg
  obtain ⟨x, hx, hxy⟩ := h₁ a y hy (lt_of_le_of_lt hyz hneg)
  exact ⟨x, hx, hxy.trans hyz⟩

theorem Solvent.of_noNewDebt {s t : Store α} (hs : Solvent rc s) (h : NoNewDebt rc s t) :
    Solvent rc t := fun a y hy => by
  by_contra hneg
  obtain ⟨x, hx, hxy⟩ := h a y hy (lt_of_not_le hneg)
  have := hs a x hx
  omega

/-- Changing one cell, where a negative count does not fall. -/
theorem noNewDebt_modify {s : Store α} {a : Nat} {f : α → α}
    (hf : ∀ x, s.get a = some x → rc (f x) < 0 → rc x ≤ rc (f x)) :
    NoNewDebt rc s (s.modify a f) := fun b y hy hneg => by
  obtain ⟨x, hx, rfl⟩ := get_modify_inv hy
  split_ifs at hneg ⊢ with hab
  · subst hab; exact ⟨x, hx, hf x hx hneg⟩
  · exact ⟨x, hx, le_rfl⟩

theorem noNewDebt_alloc {s : Store α} {y : α} (hy : 0 ≤ rc y) : NoNewDebt rc s (s.alloc y) :=
  fun b z hz hneg => by
    rw [get_alloc] at hz
    split_ifs at hz
    · cases hz; omega
    · exact ⟨z, hz, le_rfl⟩

theorem noNewDebt_free (s : Store α) (a : Nat) : NoNewDebt rc s (s.free a) := fun b y hy _ => by
  rw [get_free] at hy
  split_ifs at hy
  exact ⟨y, hy, le_rfl⟩

/-- A release that reaches zero: the cell's count lowered, the rest run through `t`, the
    cell freed. -/
theorem NoNewDebt.free_of_modify {s t : Store α} {a : Nat} {f : α → α}
    (h : NoNewDebt rc (s.modify a f) t) : NoNewDebt rc s (t.free a) := fun b y hy hneg => by
  rw [get_free] at hy
  split_ifs at hy with hab
  obtain ⟨x, hx, hxy⟩ := h b y hy hneg
  rw [get_modify, if_neg hab] at hx
  exact ⟨x, hx, hxy⟩

end Store

/-! ## Owned states -/

namespace PMState

/-- Every live object and every live oper counts at least its owner. -/
def Owned (s : PMState) : Prop :=
  Store.Solvent PyObj.refcnt s.objs ∧ Store.Solvent PyOper.refcnt s.opers

end PMState

/-- From `s` to `s'`, no live object or oper went into a debt it was not in. -/
def KeepsOwned (s s' : PMState) : Prop :=
  Store.NoNewDebt PyObj.refcnt s.objs s'.objs ∧ Store.NoNewDebt PyOper.refcnt s.opers s'.opers

namespace KeepsOwned

theorem refl (s : PMState) : KeepsOwned s s := ⟨.refl _, .refl _⟩

theorem trans {s₁ s₂ s₃ : PMState} (h₁ : KeepsOwned s₁ s₂) (h₂ : KeepsOwned s₂ s₃) :
    KeepsOwned s₁ s₃ :=
  ⟨h₁.1.trans h₂.1, h₁.2.trans h₂.2⟩

/-- Only fields outside the two heaps changed. -/
theorem of_heaps {s s' : PMState} (ho : s'.objs = s.objs) (hp : s'.opers = s.opers) :
    KeepsOwned s s' := by
  rw [KeepsOwned, ho, hp]; exact refl s

theorem foldl {β : Type} {f : PMState → β → PMState} (hf : ∀ s b, KeepsOwned s (f s b)) :
    ∀ (l : List β) (s : PMState), KeepsOwned s (l.foldl f s)
  | [], s => refl s
  | b :: l, s => (hf s b).trans (foldl hf l _)

end KeepsOwned

theorem PMState.Owned.keep {s s' : PMState} (ho : s.Owned) (h : KeepsOwned s s') : s'.Owned :=
  ⟨ho.1.of_noNewDebt h.1, ho.2.of_noNewDebt h.2⟩

/-! ## The steps the handlers are made of -/

section Steps

variable (s : PMState)

theorem keepsOwned_modObj (a : Addr) (f : PyObj → PyObj) (hf : ∀ o, o.refcnt ≤ (f o).refcnt) :
    KeepsOwned s (s.modObj a f) :=
  ⟨Store.noNewDebt_modify fun o _ _ => hf o, .refl _⟩

theorem keepsOwned_modOper (p : OAddr) (f : PyOper → PyOper) (hf : ∀ q, q.refcnt ≤ (f q).refcnt) :
    KeepsOwned s (s.modOper p f) :=
  ⟨.refl _, Store.noNewDebt_modify fun q _ _ => hf q⟩

theorem keepsOwned_newObj (v : PyVal) : KeepsOwned s (s.newObj v).1 :=
  ⟨Store.noNewDebt_alloc le_rfl, .refl _⟩

theorem keepsOwned_newOper (op : PyOp) (args : List Addr) : KeepsOwned s (s.newOper op args).1 :=
  ⟨.refl _, Store.noNewDebt_alloc le_rfl⟩

theorem keepsOwned_bumpObj (a : Addr) {d : Int} (hd : 0 ≤ d) : KeepsOwned s (s.bumpObj a d) :=
  keepsOwned_modObj s a _ fun o => by simp only; omega

theorem keepsOwned_setItems (a : Addr) (ys : List Addr) : KeepsOwned s (s.setItems a ys) :=
  keepsOwned_modObj s a _ fun o => by simp

theorem keepsOwned_setFunc (a : Addr) (m n : Option Addr) : KeepsOwned s (s.setFunc a m n) :=
  keepsOwned_modObj s a _ fun _ => le_rfl

theorem keepsOwned_appendOper (w : Addr) (p : OAddr) : KeepsOwned s (s.appendOper w p) :=
  keepsOwned_modObj s w _ fun o => by simp

theorem keepsOwned_setOperStack (p : OAddr) (args : List Addr) :
    KeepsOwned s (s.setOperStack p args) :=
  keepsOwned_modOper s p _ fun _ => le_rfl

end Steps

/-! ## The frees -/

theorem keepsOwned_pyObjFreeInternal {objF : PMState → Option Addr → PMState}
    {opF : PMState → Option OAddr → PMState} (hobj : ∀ s a, KeepsOwned s (objF s a))
    (hop : ∀ s p, KeepsOwned s (opF s p)) (s : PMState) (a : Addr) :
    KeepsOwned s (pyObjFreeInternal objF opF s a) := by
  unfold pyObjFreeInternal
  split
  · exact .refl s
  · have h0 := keepsOwned_modObj s a (fun o => { o with varname := none, val := o.val.nulled })
      fun _ => le_rfl
    split
    · exact h0.trans (KeepsOwned.foldl (fun s x => hobj s (some x)) _ _)
    · exact h0.trans (hop _ _)
    · exact h0.trans ((hobj _ _).trans (hobj _ _))
    · exact h0.trans (KeepsOwned.foldl (fun s p => hop s (some p)) _ _)
    · exact h0

/-- The end of `py_obj_deep_free`: the count lowered, the cell freed at zero. -/
theorem keepsOwned_releaseObj (s : PMState) (a : Addr) {o : PyObj} (ho : s.objs.get a = some o) :
    KeepsOwned s (releaseObj (s.bumpObj a (-1)) a o) := by
  unfold releaseObj
  split_ifs with hz
  · exact ⟨by simpa only [bumpObj, modObj, Store.free_modify] using Store.noNewDebt_free s.objs a,
      .refl _⟩
  · refine ⟨Store.noNewDebt_modify fun x hx hneg => ?_, .refl _⟩
    rw [ho] at hx; cases hx
    simp only at hneg; omega

/-- Every free keeps every count of a live cell out of a debt it was not in. -/
theorem keepsOwned_frees : ∀ n,
    (∀ s x, KeepsOwned s (pyObjFree n s x)) ∧ (∀ s x, KeepsOwned s (pyObjDeepFree n s x)) ∧
    (∀ s p, KeepsOwned s (pyopFree n s p)) ∧ (∀ s p, KeepsOwned s (pyopDeepFree n s p))
  | 0 => ⟨fun s _ => .refl s, fun s _ => .refl s, fun s _ => .refl s, fun s _ => .refl s⟩
  | n + 1 => by
    obtain ⟨h₁, h₂, h₃, h₄⟩ := keepsOwned_frees n
    refine ⟨fun s x => ?_, fun s x => ?_, fun s p => ?_, fun s p => ?_⟩
    · rcases x with _ | a
      · exact .refl s
      simp only [pyObjFree]
      split
      · exact .refl s
      · next o ho =>
        split_ifs with hz
        · have := keepsOwned_pyObjFreeInternal h₁ h₃ (s.bumpObj a (-1)) a
          exact ⟨this.1.free_of_modify, this.2⟩
        · exact ⟨Store.noNewDebt_modify fun x hx hneg => by
            rw [ho] at hx; cases hx; simp only at hneg; omega, .refl _⟩
    · rcases x with _ | a
      · exact .refl s
      simp only [pyObjDeepFree]
      have hi := keepsOwned_pyObjFreeInternal h₂ h₄ s a
      split
      · exact hi
      · next o ho => exact hi.trans (keepsOwned_releaseObj _ a ho)
    · rcases p with _ | p
      · exact .refl s
      simp only [pyopFree]
      split
      · exact .refl s
      · next q hq =>
        split_ifs with hz
        · have hf := (keepsOwned_modOper (s.modOper p fun q => { q with refcnt := q.refcnt - 1 }) p
            (fun q => { q with stack := [] }) fun _ => le_rfl).trans
            (KeepsOwned.foldl (fun s x => h₁ s (some x)) q.stack _)
          exact ⟨hf.1, hf.2.free_of_modify⟩
        · exact ⟨.refl _, Store.noNewDebt_modify fun x hx hneg => by
            rw [hq] at hx; cases hx; simp only at hneg; omega⟩
    · rcases p with _ | p
      · exact .refl s
      simp only [pyopDeepFree]
      split
      · exact .refl s
      · next q hq =>
        have hf := (keepsOwned_modOper s p (fun q => { q with stack := [] }) fun _ => le_rfl).trans
          (KeepsOwned.foldl (fun s x => h₂ s (some x)) q.stack _)
        generalize q.stack.foldl (fun s x => pyObjDeepFree n s (some x))
          (s.modOper p fun q => { q with stack := [] }) = s₂ at hf ⊢
        split
        · exact hf
        · next q' hq' =>
          refine hf.trans ?_
          split_ifs with hz
          · exact ⟨.refl _, by
              simpa only [modOper, Store.free_modify] using Store.noNewDebt_free s₂.opers p⟩
          · exact ⟨.refl _, Store.noNewDebt_modify fun x hx hneg => by
              rw [hq'] at hx; cases hx; simp only at hneg; omega⟩

/-! ## The handlers -/

section Handlers

variable (s : PMState)

theorem keepsOwned_release (a : Option Addr) : KeepsOwned s (s.release a) :=
  (keepsOwned_frees _).1 s a

theorem keepsOwned_releaseOper (p : Option OAddr) : KeepsOwned s (s.releaseOper p) :=
  (keepsOwned_frees _).2.2.1 s p

theorem keepsOwned_push (a : Addr) : KeepsOwned s (s.push a) := .of_heaps rfl rfl

theorem keepsOwned_pyWhatNew (obj : Addr) : KeepsOwned s (pyWhatNew s obj).1 :=
  ((keepsOwned_newObj s _).trans (keepsOwned_newOper _ _ _)).trans
    (keepsOwned_modObj _ _ _ fun _ => le_rfl)

theorem keepsOwned_stackTopToWhat (stack : List Addr) :
    KeepsOwned s (stackTopToWhat s stack).1 := by
  unfold stackTopToWhat
  split
  · exact .refl s
  · split_ifs
    · exact .refl s
    · exact keepsOwned_pyWhatNew s _

theorem keepsOwned_itterAddSplit (obj split : Addr) :
    KeepsOwned s (itterAddSplit s obj split).2 := by
  unfold itterAddSplit
  dsimp only
  refine KeepsOwned.trans ?_ ((keepsOwned_setItems _ _ _).trans (keepsOwned_bumpObj _ _ zero_le_one))
  split
  · split_ifs
    · exact (keepsOwned_setItems s _ _).trans (keepsOwned_release _ _)
    · exact .refl s
  · exact .refl s

end Handlers

theorem keepsOwned_addSplits : ∀ (n : Nat) (s : PMState) (obj split : Addr),
    KeepsOwned s (addSplits n s obj split).2
  | 0, s, _, _ => .refl s
  | n + 1, s, obj, split => by
    have ih : ∀ s₀ s x, KeepsOwned s₀ s → KeepsOwned s₀ (addSplits n s x split).2 :=
      fun _ s x h => h.trans (keepsOwned_addSplits n s x split)
    unfold addSplits
    split
    · exact .refl s
    · next o _ =>
      split_ifs
      · exact .refl s
      have h₁ := keepsOwned_modObj s obj (fun o => { o with recurse := s.recurse }) fun _ => le_rfl
      cases hv : o.val with
      | iter t items =>
        have h₂ := splitIterRecures_preserves (ih s) _ items h₁
        rcases hr : splitIterRecures (fun s x => addSplits n s x split)
          (s.modObj obj fun o => { o with recurse := s.recurse }) items with ⟨_ | _, s₂⟩ <;>
          rw [hr] at h₂ <;> simp only [hr]
        · exact h₂
        · split_ifs
          · exact h₂
          · exact h₂.trans (keepsOwned_itterAddSplit _ _ _)
      | what ops => exact splitWhatRecures_preserves (ih s) _ ops h₁
      | _ => exact h₁

section Handlers

variable (s : PMState)

theorem keepsOwned_splitReduce (pop : OAddr) : KeepsOwned s (splitReduce s pop).2 := by
  unfold splitReduce
  dsimp only
  split
  · exact keepsOwned_newObj s _
  · refine KeepsOwned.trans ?_ (keepsOwned_release _ _)
    refine KeepsOwned.trans ?_ (keepsOwned_addSplits _ _ _ _)
    exact (keepsOwned_newObj s _).trans ((keepsOwned_modObj _ _
      (fun o => { o with val := .split (some pop) }) fun _ => le_rfl).trans
      (keepsOwned_modOper _ pop (fun q => { q with refcnt := q.refcnt + 1 }) fun q =>
        show q.refcnt ≤ q.refcnt + 1 by omega))

theorem keepsOwned_pyWhatAddop (argc : Nat) (op : PyOp) : KeepsOwned s (pyWhatAddop s argc op).2 := by
  have h₀ := keepsOwned_newOper s op []
  unfold pyWhatAddop
  generalize s.newOper op [] = r₀ at h₀ ⊢
  obtain ⟨s₀, pop⟩ := r₀
  dsimp only at h₀ ⊢
  cases listPopN s₀.stack argc with
  | none =>
    exact h₀.trans ((keepsOwned_stackTopToWhat _ _).trans
      ((KeepsOwned.of_heaps rfl rfl).trans (keepsOwned_releaseOper _ _)))
  | some v =>
    obtain ⟨rest, args⟩ := v
    dsimp only
    have h₂ := h₀.trans ((KeepsOwned.of_heaps rfl rfl : KeepsOwned s₀ { s₀ with stack := rest }).trans
      (keepsOwned_stackTopToWhat _ rest))
    generalize stackTopToWhat { s₀ with stack := rest } rest = r₂ at h₂ ⊢
    obtain ⟨s₂, stack, obj⟩ := r₂
    have h₃ := h₂.trans (KeepsOwned.of_heaps rfl rfl : KeepsOwned s₂ { s₂ with stack := stack })
    dsimp only at h₃ ⊢
    split
    · split_ifs
      · exact h₃.trans ((keepsOwned_appendOper _ _ _).trans
          ((keepsOwned_setOperStack _ _ _).trans (keepsOwned_splitReduce _ _)))
      · exact h₃.trans ((keepsOwned_appendOper _ _ _).trans (keepsOwned_setOperStack _ _ _))
    · exact h₃.trans ((KeepsOwned.of_heaps rfl rfl).trans (keepsOwned_releaseOper _ _))

theorem keepsOwned_pyWhatAddopStack (op : PyOp) : KeepsOwned s (pyWhatAddopStack s op).2 := by
  unfold pyWhatAddopStack
  split
  · exact .refl s
  · next meta oldstack _ =>
    have h₁ := (KeepsOwned.of_heaps rfl rfl : KeepsOwned s { s with metastack := meta }).trans
      (keepsOwned_newOper _ op [])
    generalize PMState.newOper { s with metastack := meta } op [] = r₁ at h₁ ⊢
    obtain ⟨s₁, pop⟩ := r₁
    have h₂ := h₁.trans (keepsOwned_stackTopToWhat s₁ oldstack)
    dsimp only at h₂ ⊢
    generalize stackTopToWhat s₁ oldstack = r₂ at h₂ ⊢
    obtain ⟨s₂, stack, _ | w⟩ := r₂ <;> dsimp only at h₂ ⊢
    · exact h₂.trans (keepsOwned_releaseOper _ _)
    · exact h₂.trans ((keepsOwned_appendOper _ _ _).trans (keepsOwned_setOperStack _ _ _))

theorem keepsOwned_memoPut (loc : Int) : KeepsOwned s (memoPut s loc).2 := by
  unfold memoPut
  split_ifs
  · rcases hl : s.stack.getLast? with _ | a <;> dsimp only
    · rcases hm : memoUpdate s.memo loc.toNat none with ⟨m, _ | v⟩ <;> simp only [hm]
      · exact .of_heaps rfl rfl
      · exact (KeepsOwned.of_heaps rfl rfl).trans (keepsOwned_release _ _)
    · have h₁ := keepsOwned_bumpObj s a zero_le_one
      rcases hm : memoUpdate (s.bumpObj a 1).memo loc.toNat (some a) with ⟨m, _ | v⟩ <;>
        simp only [hm]
      · exact h₁.trans (.of_heaps rfl rfl)
      · exact h₁.trans ((KeepsOwned.of_heaps rfl rfl).trans (keepsOwned_release _ _))
  · exact .refl s

theorem keepsOwned_memoGet (loc : Int) : KeepsOwned s (memoGet s loc).2 := by
  unfold memoGet
  split_ifs
  · split
    · exact (keepsOwned_push s _).trans (keepsOwned_bumpObj _ _ zero_le_one)
    · exact .refl s
  · exact .refl s

theorem keepsOwned_opDup : KeepsOwned s (opDup s).2 := by
  unfold opDup
  split
  · exact (keepsOwned_push s _).trans (keepsOwned_bumpObj _ _ zero_le_one)
  · exact .refl s

theorem keepsOwned_pyIterAppendMark (obj : Addr) (t : IterType) :
    KeepsOwned s (pyIterAppendMark s obj t).2 := by
  unfold pyIterAppendMark
  split_ifs
  · exact .refl s
  · split
    · exact (keepsOwned_setItems s _ _).trans (.of_heaps rfl rfl)
    · exact .refl s
  · exact .refl s

theorem keepsOwned_iterToMark (t : IterType) : KeepsOwned s (iterToMark s t).1 := by
  have h₀ := keepsOwned_newObj s (.iter t [])
  unfold iterToMark pyIterNew
  generalize s.newObj (.iter t []) = r₀ at h₀ ⊢
  obtain ⟨s₀, obj⟩ := r₀
  have h₁ := h₀.trans (keepsOwned_pyIterAppendMark s₀ obj t)
  dsimp only at h₁ ⊢
  generalize pyIterAppendMark s₀ obj t = r at h₁ ⊢
  obtain ⟨_ | _, s₁⟩ := r
  · exact h₁.trans (keepsOwned_release _ _)
  · exact h₁

theorem keepsOwned_opTypeCreateAppend (t : IterType) : KeepsOwned s (opTypeCreateAppend s t).2 := by
  unfold opTypeCreateAppend
  have h₁ := keepsOwned_iterToMark s t
  generalize iterToMark s t = r at h₁ ⊢
  obtain ⟨s₁, _ | _⟩ := r
  · exact h₁
  · exact h₁.trans (keepsOwned_push _ _)

theorem keepsOwned_opIterN (n : Nat) (t : IterType) : KeepsOwned s (opIterN s n t).2 := by
  unfold opIterN pyIterNew
  dsimp only
  split_ifs
  · exact ((keepsOwned_newObj s _).trans ((keepsOwned_setItems _ _ _).trans (.of_heaps rfl rfl))).trans
      (keepsOwned_push _ (s.newObj (.iter t [])).2)
  · exact (keepsOwned_newObj s _).trans ((keepsOwned_setItems _ _ _).trans (.of_heaps rfl rfl))

theorem keepsOwned_pushToStackIter (t : PyType) (obj : Addr) :
    KeepsOwned s (pushToStackIter s t obj).2 := by
  unfold pushToStackIter
  split
  · split_ifs
    · exact keepsOwned_setItems s _ _
    · exact .refl s
  · exact .refl s

theorem keepsOwned_opAppend : KeepsOwned s (opAppend s).2 := by
  unfold opAppend
  split_ifs
  · exact keepsOwned_pyWhatAddop s 1 .append
  · split
    · next rest obj _ =>
      have h₁ := (KeepsOwned.of_heaps rfl rfl : KeepsOwned s { s with stack := rest }).trans
        (keepsOwned_pushToStackIter _ .list obj)
      generalize pushToStackIter { s with stack := rest } .list obj = r at h₁ ⊢
      obtain ⟨_ | _, s₁⟩ := r
      · exact h₁.trans (keepsOwned_push _ _)
      · exact h₁
    · exact .refl s
  · exact .refl s

theorem keepsOwned_opAppends (op : PyOp) (t : IterType) : KeepsOwned s (opAppends s op t).2 := by
  unfold opAppends
  split
  · split
    · split_ifs
      · exact keepsOwned_pyWhatAddopStack s op
      · exact keepsOwned_pyIterAppendMark s _ t
    · exact .refl s
  · exact .refl s

theorem keepsOwned_opSetitem : KeepsOwned s (opSetitem s).2 := by
  unfold opSetitem
  split_ifs
  · exact keepsOwned_pyWhatAddop s 2 .setitem
  · split
    · next value key obj _ _ =>
      have h₁ := (KeepsOwned.of_heaps rfl rfl : KeepsOwned s { s with stack := s.stack.dropLast.dropLast })
      dsimp only
      split_ifs
      · exact h₁.trans (keepsOwned_setItems _ _ _)
      · exact h₁.trans ((keepsOwned_release _ _).trans (keepsOwned_release _ _))
    · exact .refl s
  · exact .refl s

theorem keepsOwned_opSetitems : KeepsOwned s (opSetitems s).2 := by
  unfold opSetitems
  split
  · split
    · split_ifs
      · exact keepsOwned_pyIterAppendMark s _ .dict
      · exact keepsOwned_pyWhatAddopStack s .setitems
    · exact .refl s
  · exact .refl s

/-- A handler that pushes one new object. -/
theorem keepsOwned_pushNew (v : PyVal) : KeepsOwned s ((s.newObj v).1.push (s.newObj v).2) :=
  (keepsOwned_newObj s v).trans (keepsOwned_push _ _)

theorem keepsOwned_opFloat (c : RCore) (op : RAnalOp) (quoted : Bool) :
    KeepsOwned s (opFloat c s op quoted).2 := by
  unfold opFloat
  dsimp only
  split
  · next d _ =>
    exact (keepsOwned_newObj s _).trans ((keepsOwned_modObj _ _ (fun o => { o with val := .float d })
      fun _ => le_rfl).trans (keepsOwned_push _ _))
  · exact (keepsOwned_newObj s _).trans (keepsOwned_release _ _)

theorem keepsOwned_pushStr (c : RCore) (op : RAnalOp) : KeepsOwned s (pushStr c s op).2 := by
  unfold pushStr
  dsimp only
  split
  · exact keepsOwned_pushNew s _
  · exact (keepsOwned_newObj s _).trans (keepsOwned_release _ _)

theorem keepsOwned_globObj (op : RAnalOp) : KeepsOwned s (globObj s op).1 := by
  have h₀ := keepsOwned_newObj s (.func none none)
  unfold globObj
  generalize s.newObj (.func none none) = r₀ at h₀ ⊢
  obtain ⟨s₀, obj⟩ := r₀
  dsimp only at h₀ ⊢
  have h₁ : KeepsOwned s (match (opStrArg op.mnemonic).map (·.splitOn " ") with
      | some [module, name] =>
        let (s, m) := s₀.newObj (.str module)
        if name = "" then s.setFunc obj (some m) none
        else
          let (s, n) := s.newObj (.str name)
          s.setFunc obj (some m) (some n)
      | _ => s₀) := by
    split
    · dsimp only
      split_ifs
      · exact h₀.trans ((keepsOwned_newObj _ _).trans (keepsOwned_setFunc _ _ _ _))
      · exact h₀.trans ((keepsOwned_newObj _ _).trans ((keepsOwned_newObj _ _).trans
          (keepsOwned_setFunc _ _ _ _)))
    · exact h₀
  split
  · exact h₁
  · exact h₁.trans (keepsOwned_release _ _)

theorem keepsOwned_opGlobal (op : RAnalOp) : KeepsOwned s (opGlobal s op).2 := by
  have h₁ := keepsOwned_globObj s op
  unfold opGlobal
  generalize globObj s op = r at h₁ ⊢
  obtain ⟨s₁, _ | obj⟩ := r
  · exact h₁
  · exact h₁.trans (keepsOwned_push _ _)

theorem keepsOwned_opStackGlobal : KeepsOwned s (opStackGlobal s).2 := by
  unfold opStackGlobal
  split_ifs
  · dsimp only
    split
    · exact (keepsOwned_newObj s _).trans ((KeepsOwned.of_heaps rfl rfl).trans
        ((keepsOwned_setFunc _ _ _ _).trans (keepsOwned_push _ (s.newObj (.func none none)).2)))
    · exact (keepsOwned_newObj s _).trans (keepsOwned_release _ _)
  · exact .refl s

theorem keepsOwned_insantiate (op : RAnalOp) (cls args : Option Addr) :
    KeepsOwned s (insantiate s op cls args).2 := by
  unfold insantiate
  match args, cls with
  | some a, some c =>
    exact ((keepsOwned_push s c).trans (keepsOwned_push _ a)).trans (keepsOwned_pyWhatAddop _ 1 _)
  | none, _ | some _, none => exact (keepsOwned_release s _).trans (keepsOwned_release _ _)

theorem keepsOwned_opInst (op : RAnalOp) : KeepsOwned s (opInst s op).2 := by
  have h₁ := keepsOwned_globObj s op
  unfold opInst
  generalize globObj s op = r₁ at h₁ ⊢
  obtain ⟨s₁, cls⟩ := r₁
  have h₂ := h₁.trans (keepsOwned_iterToMark s₁ .list)
  dsimp only at h₂ ⊢
  generalize iterToMark s₁ .list = r₂ at h₂ ⊢
  obtain ⟨s₂, args⟩ := r₂
  exact h₂.trans (keepsOwned_insantiate s₂ op cls args)

theorem keepsOwned_opObj (op : RAnalOp) : KeepsOwned s (opObj s op).2 := by
  unfold opObj
  rcases hst : s.stack with _ | ⟨c, rest⟩ <;> dsimp only
  · have h₂ := keepsOwned_iterToMark s .list
    generalize iterToMark s .list = r₂ at h₂ ⊢
    obtain ⟨s₂, args⟩ := r₂
    exact h₂.trans (keepsOwned_insantiate s₂ op _ args)
  · have h₂ := (KeepsOwned.of_heaps rfl rfl : KeepsOwned s { s with stack := rest }).trans
      (keepsOwned_iterToMark _ .list)
    generalize iterToMark { s with stack := rest } .list = r₂ at h₂ ⊢
    obtain ⟨s₂, args⟩ := r₂
    exact h₂.trans (keepsOwned_insantiate s₂ op _ args)

end Handlers

/-- Every call of `exec_op`, whether it gets through or not, puts no live cell in debt. -/
theorem keepsOwned_execOp (c : RCore) (s : PMState) (op : RAnalOp) (code : PyOp) :
    KeepsOwned s (execOp c s op code).2 := by
  cases code <;> unfold execOp <;> dsimp only
  case proto => split_ifs <;> exact .of_heaps rfl rfl
  case mark => exact .of_heaps rfl rfl
  case pop => unfold opPop; split <;> exact .of_heaps rfl rfl
  case popMark => unfold opPopMark; split <;> exact .of_heaps rfl rfl
  case none => exact keepsOwned_pushNew s _
  case binint | binint1 | binint2 | long1 | long4 => exact keepsOwned_pushNew s _
  case float | binfloat => exact keepsOwned_opFloat s c op _
  case string | unicode | binunicode8 | binbytes8 | bytearray8 | binstring | binunicode | binbytes
    | shortBinbytes | shortBinstring | shortBinunicode => exact keepsOwned_pushStr s c op
  case obj => exact keepsOwned_opObj s op
  case inst => exact keepsOwned_opInst s op
  case global => exact keepsOwned_opGlobal s op
  case stackGlobal => exact keepsOwned_opStackGlobal s
  case newobj | build | reduce => exact keepsOwned_pyWhatAddop s 1 _
  case tuple | list | dict | frozenset => exact keepsOwned_opTypeCreateAppend s _
  case emptyTuple | tuple1 | tuple2 | tuple3 | emptyList | emptyDict | emptySet =>
    exact keepsOwned_opIterN s _ _
  case append => exact keepsOwned_opAppend s
  case appends | additems => exact keepsOwned_opAppends s _ _
  case setitem => exact keepsOwned_opSetitem s
  case setitems => exact keepsOwned_opSetitems s
  case newtrue | newfalse => exact keepsOwned_pushNew s _
  case memoize | longBinput | binput => exact keepsOwned_memoPut s _
  case longBinget | binget => exact keepsOwned_memoGet s _
  case dup => exact keepsOwned_opDup s
  all_goals exact .refl s

/-! ## Runs -/

theorem owned_initState (off : Nat) : (initState off).Owned :=
  ⟨fun _ _ h => by simp [initState, Store.get] at h, fun _ _ h => by simp [initState, Store.get] at h⟩

/-- Every reachable state is owned. -/
theorem Reachable.owned {c : RCore} {s : PMState} (hs : Reachable c s) : s.Owned := by
  induction hs with
  | init h =>
    unfold initMachineState at h
    split_ifs at h
    cases h
    exact owned_initState _
  | step op code _ hstep ih =>
    have := ih.keep (keepsOwned_execOp c _ op code)
    rwa [hstep] at this
  | advance k _ ih => exact ih.keep (.of_heaps rfl rfl)

/-- In every reachable state every live object and every live oper has a count of at
    least zero and an owning reference: the heap holds no garbage. -/
theorem reachable_no_garbage (c : RCore) (s : PMState) (hs : Reachable c s) :
    (∀ a o, s.objs.get a = some o → 0 ≤ o.refcnt ∧ 0 < s.objRefCount a) ∧
      ∀ p q, s.opers.get p = some q → 0 ≤ q.refcnt ∧ 0 < s.operRefCount p := by
  have hi := hs.inv
  have ho := hs.owned
  refine ⟨fun a o ha => ?_, fun p q hp => ?_⟩
  · have h₁ := hi.objCount a
    have h₂ := ho.1 a o ha
    simp only [Store.held, ha, Option.map_some', Option.getD_some, List.count_nil] at h₁
    exact ⟨h₂, by omega⟩
  · have h₁ := hi.operCount p
    have h₂ := ho.2 p q hp
    simp only [Store.held, hp, Option.map_some', Option.getD_some] at h₁
    exact ⟨h₂, by omega⟩

/-- `EMPTY_LIST`, `MEMOIZE`, `BINGET 0`, `APPEND`: a memoized list that contains itself,
    the object the note at the top of `pickle_dec.c` is about. -/
def selfListOps : List (PyOp × RAnalOp) :=
  [(.emptyList, .imm 0), (.memoize, .imm 0), (.binget, .imm 0), (.append, .imm 0)]

theorem reachable_no_garbage_self_list :
    ∃ s, execRun .plain (initState 0) selfListOps = some s ∧
      (∀ a o, s.objs.get a = some o → 0 ≤ o.refcnt ∧ 0 < s.objRefCount a) ∧
        ∀ p q, s.opers.get p = some q → 0 ≤ q.refcnt ∧ 0 < s.operRefCount p :=
  ⟨_, rfl, reachable_no_garbage .plain _
    (Reachable.of_plainRun (show execRun .plain (initState 0) selfListOps = _ from rfl))⟩

end PickleDec
