import PickleDec.Reclaim

/-!
# The frees on counts that may be too high

`Pending` asks every count to be exact. A handler that fails part-way may leave a cell
counted for an owner it dropped (`op_iter_n` abandons the iterable it was filling,
counted once and held by nothing), and `pickle_dec` runs `empty_state` on that state
too. What the frees need is weaker: `Backed s E P`, no cell has more owners, in the
heaps and among the pending pointers `E` and `P`, than its count says. A pending cell is
then live, and a cell whose count runs out has no owner left.

Every free keeps `Backed` with its pointer released, and sheds owners without touching
a cell that has none (`Sheds`). That frame is what the non-deep frees need: `py_obj_free`
releases the payload of an object whose last owner it is, then frees the object, which
nothing the payload's frees reach can have freed before.
-/

set_option autoImplicit false

namespace PickleDec

open PMState

/-! ## Owners -/

theorem Store.held_free {α : Type} (rc : α → Int) (s : Store α) (a b : Nat) :
    (s.free a).held rc b = if a = b then 0 else s.held rc b := by
  unfold Store.held; rw [Store.get_free]; split_ifs <;> rfl

/-- Adding `d` to a live cell's count adds `d` to what it holds. -/
theorem Store.held_modify_add {α : Type} (rc : α → Int) (s : Store α) {a : Nat} {y : α}
    (ha : s.get a = some y) (f : α → α) (d : Int) (hf : ∀ y, rc (f y) = rc y + d) (b : Nat) :
    (s.modify a f).held rc b = s.held rc b + if a = b then d else 0 := by
  unfold Store.held; rw [Store.get_modify]
  split_ifs with hab
  · subst hab; simp only [ha, Option.map_some', Option.getD_some, hf]; ring
  · simp

namespace PMState

/-- The owners of the object `a` with `E` pending: its pointers in the heaps and in `E`. -/
def owners (s : PMState) (E : List Addr) (a : Addr) : Nat := s.heapRefs a + E.count a

/-- The owners of the oper `p` with `P` pending. -/
def operOwners (s : PMState) (P : List OAddr) (p : OAddr) : Nat := s.operRefCount p + P.count p

variable {s : PMState}

theorem owners_perm {E E' : List Addr} (h : E.Perm E') (a : Addr) : s.owners E a = s.owners E' a := by
  simp only [owners, h.count_eq]

theorem owners_cons_self (E : List Addr) (a : Addr) : 0 < s.owners (a :: E) a := by
  simp [owners]

theorem operOwners_cons_self (P : List OAddr) (p : OAddr) : 0 < s.operOwners (p :: P) p := by
  simp [operOwners]

@[simp] theorem bumpObj_opers (a : Addr) (d : Int) : (s.bumpObj a d).opers = s.opers := rfl

@[simp] theorem modOper_objs (p : OAddr) (f : PyOper → PyOper) : (s.modOper p f).objs = s.objs := rfl

theorem val_bump (d : Int) (o : PyObj) : ({ o with refcnt := o.refcnt + d } : PyObj).val = o.val := rfl

@[simp] theorem heapRefs_bumpObj (a : Addr) (d : Int) (b : Addr) : (s.bumpObj a d).heapRefs b = s.heapRefs b :=
  heapRefs_modObj (val_bump d) a b

@[simp] theorem operRefCount_bumpObj (a : Addr) (d : Int) (p : OAddr) :
    (s.bumpObj a d).operRefCount p = s.operRefCount p :=
  operRefCount_modObj s (val_bump d) a p

theorem stack_decOper (q : PyOper) : ({ q with refcnt := q.refcnt - 1 } : PyOper).stack = q.stack := rfl

theorem held_null (a b : Addr) :
    (s.modObj a fun o => { o with varname := none, val := o.val.nulled }).objs.held PyObj.refcnt b =
      s.objs.held PyObj.refcnt b :=
  Store.held_modify_of _ _ _ _ _ fun _ => rfl

theorem held_clear (p p' : OAddr) :
    (s.modOper p fun q => { q with stack := [] }).opers.held PyOper.refcnt p' = s.opers.held PyOper.refcnt p' :=
  Store.held_modify_of _ _ _ _ _ fun _ => rfl

@[simp] theorem operRefCount_modOper (p' : OAddr) (f : PyOper → PyOper) (p : OAddr) :
    (s.modOper p' f).operRefCount p = s.operRefCount p := rfl

theorem held_bumpObj {a : Addr} {o : PyObj} (ha : s.objs.get a = some o) (d : Int) (b : Addr) :
    (s.bumpObj a d).objs.held PyObj.refcnt b = s.objs.held PyObj.refcnt b + if a = b then d else 0 :=
  Store.held_modify_add _ _ ha _ d (fun _ => rfl) b

theorem held_decOper {p : OAddr} {q : PyOper} (hq : s.opers.get p = some q) (b : OAddr) :
    (s.modOper p fun q => { q with refcnt := q.refcnt - 1 }).opers.held PyOper.refcnt b =
      s.opers.held PyOper.refcnt b + if p = b then -1 else 0 :=
  Store.held_modify_add _ _ hq _ (-1) (fun _ => Int.sub_eq_add_neg ..) b

theorem heapRefs_modOper {p : OAddr} {f : PyOper → PyOper} (hf : ∀ q, (f q).stack = q.stack) (b : Addr) :
    (s.modOper p f).heapRefs b = s.heapRefs b := by
  simp only [heapRefs, modOper]
  rw [Store.countIn_modify_of _ _ _ _ _ fun q => by rw [hf]]

/-- The oper frees' nulling of `stack` takes the arguments out of the heap counts. -/
theorem heapRefs_clear {p : OAddr} {q : PyOper} (hq : s.opers.get p = some q) (b : Addr) :
    (s.modOper p fun q => { q with stack := [] }).heapRefs b + q.stack.count b = s.heapRefs b := by
  have := Store.countIn_modify PyOper.stack s.opers p b fun q => { q with stack := [] }
  simp only [hq, Store.cnt_some, Option.map_some', List.count_nil] at this
  simp only [heapRefs, modOper]
  omega

theorem owners_null {a : Addr} {o : PyObj} (ha : s.objs.get a = some o) (E : List Addr) (b : Addr) :
    (s.modObj a fun o => { o with varname := none, val := o.val.nulled }).owners (o.val.objPtrs ++ E) b =
      s.owners E b := by
  have := heapRefs_null ha b
  simp only [owners, List.count_append]; omega

theorem operOwners_null {a : Addr} {o : PyObj} (ha : s.objs.get a = some o) (P : List OAddr) (p : OAddr) :
    (s.modObj a fun o => { o with varname := none, val := o.val.nulled }).operOwners (o.val.operPtrs ++ P) p =
      s.operOwners P p := by
  have := operRefCount_null ha p
  simp only [operOwners, List.count_append]; omega

theorem owners_clear {p : OAddr} {q : PyOper} (hq : s.opers.get p = some q) (E : List Addr) (b : Addr) :
    (s.modOper p fun q => { q with stack := [] }).owners (q.stack ++ E) b = s.owners E b := by
  have := heapRefs_clear hq b
  simp only [owners, List.count_append]; omega

theorem heapRefs_freeObj_le (a b : Addr) :
    ({ s with objs := s.objs.free a } : PMState).heapRefs b ≤ s.heapRefs b := by
  have := Store.countIn_free (fun o : PyObj => o.val.objPtrs) s.objs a b
  simp only [heapRefs]; omega

theorem operRefCount_freeObj_le (a : Addr) (p : OAddr) :
    ({ s with objs := s.objs.free a } : PMState).operRefCount p ≤ s.operRefCount p := by
  have := Store.countIn_free (fun o : PyObj => o.val.operPtrs) s.objs a p
  simp only [operRefCount]; omega

theorem heapRefs_freeOper_le (p : OAddr) (b : Addr) :
    ({ s with opers := s.opers.free p } : PMState).heapRefs b ≤ s.heapRefs b := by
  have := Store.countIn_free PyOper.stack s.opers p b
  simp only [heapRefs]; omega

end PMState

/-! ## The invariant of the frees on any state -/

/-- No cell has more owners, with `E` and `P` pending, than its count says; a freed cell
    has none. -/
structure Backed (s : PMState) (E : List Addr) (P : List OAddr) : Prop where
  objCount : ∀ a, (s.owners E a : Int) ≤ s.objs.held PyObj.refcnt a
  operCount : ∀ p, (s.operOwners P p : Int) ≤ s.opers.held PyOper.refcnt p

/-- From `s` with `E`, `P` pending to `s'` with `E'`, `P'`: no cell gained an owner, and a
    cell that had none is as it was. -/
structure Sheds (s : PMState) (E : List Addr) (P : List OAddr) (s' : PMState) (E' : List Addr)
    (P' : List OAddr) : Prop where
  owners : ∀ a, s'.owners E' a ≤ s.owners E a
  operOwners : ∀ p, s'.operOwners P' p ≤ s.operOwners P p
  keep : ∀ a, s.owners E a = 0 → s'.objs.get a = s.objs.get a
  keepOper : ∀ p, s.operOwners P p = 0 → s'.opers.get p = s.opers.get p

namespace Backed

variable {s : PMState} {E : List Addr} {P : List OAddr}

/-- A cell with an owner is live. -/
theorem live_of_pos (hb : Backed s E P) {a : Addr} (ha : 0 < s.owners E a) : ∃ o, s.objs.get a = some o := by
  have := hb.objCount a
  cases hg : s.objs.get a with
  | none => simp only [Store.held, hg, Option.map_none', Option.getD_none] at this; omega
  | some o => exact ⟨o, rfl⟩

theorem live (hb : Backed s E P) {a : Addr} (ha : a ∈ E) : ∃ o, s.objs.get a = some o :=
  hb.live_of_pos (by have := List.count_pos_iff.mpr ha; simp only [owners]; omega)

theorem liveOper (hb : Backed s E P) {p : OAddr} (hp : p ∈ P) : ∃ q, s.opers.get p = some q := by
  have := hb.operCount p
  have := List.count_pos_iff.mpr hp
  cases hg : s.opers.get p with
  | none => simp only [operOwners, Store.held, hg, Option.map_none', Option.getD_none] at *; omega
  | some q => exact ⟨q, rfl⟩

/-- Fewer pending pointers: a leak. -/
theorem mono (hb : Backed s E P) {E' : List Addr} {P' : List OAddr} (hE : ∀ a, E'.count a ≤ E.count a)
    (hP : ∀ p, P'.count p ≤ P.count p) : Backed s E' P' :=
  ⟨fun a => le_trans (by have := hE a; simp only [owners]; push_cast; omega) (hb.objCount a),
    fun p => le_trans (by have := hP p; simp only [operOwners]; push_cast; omega) (hb.operCount p)⟩

theorem perm (hb : Backed s E P) {E' : List Addr} (h : E.Perm E') : Backed s E' P :=
  hb.mono (fun a => (h.count_eq a).ge) fun _ => le_rfl

/-- Only the two heaps matter. -/
theorem of_heaps {s' : PMState} (hb : Backed s E P) (ho : s'.objs = s.objs) (hq : s'.opers = s.opers) :
    Backed s' E P :=
  ⟨fun a => by simpa only [owners, heapRefs, ho, hq] using hb.objCount a,
    fun p => by simpa only [operOwners, operRefCount, ho, hq] using hb.operCount p⟩

/-- A release that only lowers the count, on a pending object. -/
theorem bump {a : Addr} (hb : Backed s (a :: E) P) : Backed (s.bumpObj a (-1)) E P := by
  obtain ⟨o, ha⟩ := hb.live (List.mem_cons_self a E)
  refine ⟨fun b => ?_, fun p => by simpa only [operOwners, operRefCount_bumpObj] using hb.operCount p⟩
  have := hb.objCount b
  simp only [owners, heapRefs_bumpObj, held_bumpObj ha, List.count_cons, beq_iff_eq] at this ⊢
  split_ifs at this ⊢ <;> push_cast at this ⊢ <;> omega

/-- A release that only lowers the count, on a pending oper. -/
theorem bumpOper {p : OAddr} (hb : Backed s E (p :: P)) :
    Backed (s.modOper p fun q => { q with refcnt := q.refcnt - 1 }) E P := by
  obtain ⟨q, hq⟩ := hb.liveOper (List.mem_cons_self p P)
  refine ⟨fun b => by simpa only [owners, heapRefs_modOper stack_decOper, modOper_objs] using hb.objCount b,
    fun p' => ?_⟩
  have := hb.operCount p'
  simp only [operOwners, operRefCount_modOper, held_decOper hq, List.count_cons, beq_iff_eq] at this ⊢
  split_ifs at this ⊢ <;> push_cast at this ⊢ <;> omega

/-- `py_obj_free_internal`'s nulling: the pointers of the object at `a` become pending. -/
theorem null (hb : Backed s E P) {a : Addr} {o : PyObj} (ha : s.objs.get a = some o) :
    Backed (s.modObj a fun o => { o with varname := none, val := o.val.nulled })
      (o.val.objPtrs ++ E) (o.val.operPtrs ++ P) :=
  ⟨fun b => by
      rw [owners_null ha, held_null]
      exact hb.objCount b,
    fun p => by rw [operOwners_null ha]; exact hb.operCount p⟩

/-- The oper frees' nulling of `stack`: the arguments of the oper at `p` become pending. -/
theorem clear (hb : Backed s E P) {p : OAddr} {q : PyOper} (hq : s.opers.get p = some q) :
    Backed (s.modOper p fun q => { q with stack := [] }) (q.stack ++ E) P :=
  ⟨fun b => by rw [owners_clear hq]; exact hb.objCount b,
    fun p' => by rw [held_clear]; exact hb.operCount p'⟩

/-- Freeing an object with no owner left. -/
theorem freeObj (hb : Backed s E P) {a : Addr} (h0 : s.owners E a = 0) :
    Backed { s with objs := s.objs.free a } E P := by
  refine ⟨fun b => ?_, fun p => le_trans ?_ (hb.operCount p)⟩
  · have h₁ := heapRefs_freeObj_le (s := s) a b
    rw [Store.held_free]
    split_ifs with hab
    · subst hab; simp only [owners] at h0 ⊢; omega
    · exact le_trans (by simp only [owners]; push_cast; omega) (hb.objCount b)
  · have := operRefCount_freeObj_le (s := s) a p
    simp only [operOwners]; push_cast; omega

/-- Freeing an oper with no owner left. -/
theorem freeOper (hb : Backed s E P) {p : OAddr} (h0 : s.operOwners P p = 0) :
    Backed { s with opers := s.opers.free p } E P := by
  refine ⟨fun b => le_trans ?_ (hb.objCount b), fun p' => ?_⟩
  · have := heapRefs_freeOper_le (s := s) p b
    simp only [owners]; push_cast; omega
  · rw [Store.held_free]
    split_ifs with hpp
    · subst hpp; simp only [operOwners, operRefCount] at h0 ⊢; omega
    · exact hb.operCount p'

/-- The end of `py_obj_deep_free` on a pending object: the count lowered, the cell freed
    once it had no other owner. -/
theorem releaseObj {a : Addr} {o : PyObj} (hb : Backed s (a :: E) P) (ha : s.objs.get a = some o) :
    Backed (PickleDec.releaseObj (s.bumpObj a (-1)) a o) E P := by
  unfold PickleDec.releaseObj
  split_ifs with hz
  · refine hb.bump.freeObj ?_
    have := hb.objCount a
    simp only [owners, heapRefs_bumpObj, Store.held, ha, Option.map_some', Option.getD_some,
      List.count_cons_self] at this ⊢
    push_cast at this; omega
  · exact hb.bump

/-- The end of `pyop_deep_free` on a pending oper. -/
theorem releaseOper {p : OAddr} {q : PyOper} (hb : Backed s E (p :: P)) (hq : s.opers.get p = some q) :
    Backed (let s := s.modOper p fun q => { q with refcnt := q.refcnt - 1 }
      if q.refcnt ≤ 0 then { s with opers := s.opers.free p } else s) E P := by
  dsimp only
  split_ifs with hz
  · refine hb.bumpOper.freeOper ?_
    have := hb.operCount p
    simp only [operOwners, operRefCount_modOper, Store.held, hq, Option.map_some', Option.getD_some,
      List.count_cons_self] at this ⊢
    push_cast at this; omega
  · exact hb.bumpOper

end Backed

/-! ## Shedding owners -/

namespace Sheds

variable {s s' : PMState} {E E' : List Addr} {P P' : List OAddr}

theorem refl (s : PMState) (E : List Addr) (P : List OAddr) : Sheds s E P s E P :=
  ⟨fun _ => le_rfl, fun _ => le_rfl, fun _ _ => rfl, fun _ _ => rfl⟩

theorem trans {s₂ : PMState} {E₂ : List Addr} {P₂ : List OAddr} (h₁ : Sheds s E P s' E' P')
    (h₂ : Sheds s' E' P' s₂ E₂ P₂) : Sheds s E P s₂ E₂ P₂ :=
  ⟨fun a => (h₂.owners a).trans (h₁.owners a), fun p => (h₂.operOwners p).trans (h₁.operOwners p),
    fun a h => (h₂.keep a (by have := h₁.owners a; omega)).trans (h₁.keep a h),
    fun p h => (h₂.keepOper p (by have := h₁.operOwners p; omega)).trans (h₁.keepOper p h)⟩

/-- Pending pointers dropped. -/
theorem mono (hE : ∀ a, E'.count a ≤ E.count a) (hP : ∀ p, P'.count p ≤ P.count p) : Sheds s E P s E' P' :=
  ⟨fun a => by have := hE a; simp only [PMState.owners]; omega, fun p => by have := hP p; simp only [PMState.operOwners]; omega,
    fun _ _ => rfl, fun _ _ => rfl⟩

theorem drop (x : Addr) : Sheds s (x :: E) P s E P :=
  mono (fun a => List.count_le_count_cons a x E) fun _ => le_rfl

theorem dropOper (x : OAddr) : Sheds s E (x :: P) s E P :=
  mono (fun _ => le_rfl) fun p => List.count_le_count_cons p x P

theorem perm_left (h : Sheds s E P s' E' P') {E₁ : List Addr} (hE : E.Perm E₁) : Sheds s E₁ P s' E' P' :=
  ⟨fun a => (owners_perm hE a) ▸ h.owners a, h.operOwners, fun a h₀ => h.keep a ((owners_perm hE a).trans h₀),
    h.keepOper⟩

/-- A step that leaves the two heaps as they were. -/
theorem of_heaps (ho : s'.objs = s.objs) (hq : s'.opers = s.opers) : Sheds s E P s' E P :=
  ⟨fun a => by simp only [PMState.owners, heapRefs, ho, hq, le_refl],
    fun p => by simp only [PMState.operOwners, operRefCount, ho, le_refl],
    fun _ _ => by rw [ho], fun _ _ => by rw [hq]⟩

/-- One more pending object on both sides. -/
theorem cons (h : Sheds s E P s' E' P') (x : Addr) : Sheds s (x :: E) P s' (x :: E') P' :=
  ⟨fun a => by have := h.owners a; simp only [PMState.owners, List.count_cons] at this ⊢; omega, h.operOwners,
    fun a h₀ => h.keep a (by simp only [PMState.owners, List.count_cons] at h₀ ⊢; omega), h.keepOper⟩

/-- One more pending oper on both sides. -/
theorem consOper (h : Sheds s E P s' E' P') (x : OAddr) : Sheds s E (x :: P) s' E' (x :: P') :=
  ⟨h.owners, fun p => by have := h.operOwners p; simp only [PMState.operOwners, List.count_cons] at this ⊢; omega,
    h.keep, fun p h₀ => h.keepOper p (by simp only [PMState.operOwners, List.count_cons] at h₀ ⊢; omega)⟩

/-- A change to an owned object that keeps its payload. -/
theorem modObj {a : Addr} {f : PyObj → PyObj} (hf : ∀ o, (f o).val = o.val) (hpos : 0 < s.owners E a) :
    Sheds s E P (s.modObj a f) E P :=
  ⟨fun b => by simp only [PMState.owners, heapRefs_modObj hf, le_rfl],
    fun p => by simp only [PMState.operOwners, operRefCount_modObj s hf, le_rfl],
    fun b h₀ => by
      have hab : a ≠ b := by rintro rfl; omega
      simp [PMState.modObj, hab],
    fun _ _ => rfl⟩

/-- A change to an owned oper that keeps its arguments. -/
theorem modOper {p : OAddr} {f : PyOper → PyOper} (hf : ∀ q, (f q).stack = q.stack)
    (hpos : 0 < s.operOwners P p) : Sheds s E P (s.modOper p f) E P :=
  ⟨fun b => by simp only [PMState.owners, heapRefs_modOper hf, le_rfl], fun _ => le_rfl, fun _ _ => rfl,
    fun p' h₀ => by
      have hpp : p ≠ p' := by rintro rfl; omega
      simp [PMState.modOper, hpp]⟩

theorem null {a : Addr} {o : PyObj} (ha : s.objs.get a = some o) (hpos : 0 < s.owners E a) :
    Sheds s E P (s.modObj a fun o => { o with varname := none, val := o.val.nulled })
      (o.val.objPtrs ++ E) (o.val.operPtrs ++ P) :=
  ⟨fun b => (owners_null ha E b).le, fun p => (operOwners_null ha P p).le,
    fun b h₀ => by
      have hab : a ≠ b := by rintro rfl; omega
      simp [PMState.modObj, hab],
    fun _ _ => rfl⟩

theorem clear {p : OAddr} {q : PyOper} (hq : s.opers.get p = some q) (hpos : 0 < s.operOwners P p) :
    Sheds s E P (s.modOper p fun q => { q with stack := [] }) (q.stack ++ E) P :=
  ⟨fun b => (owners_clear hq E b).le, fun _ => le_rfl, fun _ _ => rfl,
    fun p' h₀ => by
      have hpp : p ≠ p' := by rintro rfl; omega
      simp [PMState.modOper, hpp]⟩

theorem freeObj {a : Addr} (hpos : 0 < s.owners E a) : Sheds s E P { s with objs := s.objs.free a } E P :=
  ⟨fun b => by have := heapRefs_freeObj_le (s := s) a b; simp only [PMState.owners]; omega,
    fun p => by have := operRefCount_freeObj_le (s := s) a p; simp only [PMState.operOwners]; omega,
    fun b h₀ => by
      have hab : a ≠ b := by rintro rfl; omega
      simp [hab],
    fun _ _ => rfl⟩

theorem freeOper {p : OAddr} (hpos : 0 < s.operOwners P p) : Sheds s E P { s with opers := s.opers.free p } E P :=
  ⟨fun b => by have := heapRefs_freeOper_le (s := s) p b; simp only [PMState.owners]; omega, fun _ => le_rfl,
    fun _ _ => rfl,
    fun p' h₀ => by
      have hpp : p ≠ p' := by rintro rfl; omega
      simp [hpp]⟩

theorem releaseObj (a : Addr) (o : PyObj) :
    Sheds s (a :: E) P (PickleDec.releaseObj (s.bumpObj a (-1)) a o) E P := by
  have h₁ : Sheds s (a :: E) P (s.bumpObj a (-1)) (a :: E) P := modObj (val_bump (-1)) (owners_cons_self E a)
  refine h₁.trans (Sheds.trans ?_ (drop a))
  unfold PickleDec.releaseObj
  split_ifs
  exacts [freeObj (owners_cons_self E a), refl _ _ _]

theorem releaseOper (p : OAddr) (q : PyOper) :
    Sheds s E (p :: P) (let s := s.modOper p fun q => { q with refcnt := q.refcnt - 1 }
      if q.refcnt ≤ 0 then { s with opers := s.opers.free p } else s) E P := by
  have h₁ : Sheds s E (p :: P) (s.modOper p fun q => { q with refcnt := q.refcnt - 1 }) E (p :: P) :=
    modOper stack_decOper (operOwners_cons_self P p)
  refine h₁.trans (Sheds.trans ?_ (dropOper p))
  dsimp only
  split_ifs
  exacts [freeOper (operOwners_cons_self P p), refl _ _ _]

end Sheds

/-! ## Every free keeps `Backed` -/

/-- A free checked by `T` and run by `F`, on the pending lists read off `L` by `e` (the
    objects) and `q` (the opers): on a pointer pending together with `L`, at a fuel above
    the linked cells, the check passes, `Backed` holds with the pointer released, and the
    free only sheds owners. -/
def Frees (m : Nat) (e : List Nat → List Addr) (q : List Nat → List OAddr)
    (T : PMState → Option Nat → Option PMState) (F : PMState → Option Nat → PMState) : Prop :=
  ∀ s x L, (x.isSome → s.linked < m) → Backed s (e (x.toList ++ L)) (q (x.toList ++ L)) →
    T s x = some (F s x) ∧ Backed (F s x) (e L) (q L) ∧
      Sheds s (e (x.toList ++ L)) (q (x.toList ++ L)) (F s x) (e L) (q L)

section Frees

variable {m : Nat} {e : List Nat → List Addr} {q : List Nat → List OAddr}
  {T : PMState → Option Nat → Option PMState} {F : PMState → Option Nat → PMState}

theorem frees_zero (hT : ∀ s, T s none = some s) (hF : ∀ s, F s none = s) : Frees 0 e q T F := by
  rintro s (_ | x) L hq hb
  · exact ⟨by rw [hT, hF], by rwa [hF], by rw [hF]; exact .refl _ _ _⟩
  · exact absurd (hq rfl) (Nat.not_lt_zero _)

/-- The calls of a `list_free_with` or of a payload loop, one per pointer of `l`. -/
theorem Frees.foldlM (h : Frees m e q T F) {C : PMState → Option Nat → Option (PMState × Nat)}
    (hb : Bounded (·.linked < m) C F) :
    ∀ (l : List Nat) s L, (l ≠ [] → s.linked < m) → Backed s (e (l ++ L)) (q (l ++ L)) →
      l.foldlM (fun s x => T s (some x)) s = some (l.foldl (fun s x => F s (some x)) s) ∧
        Backed (l.foldl (fun s x => F s (some x)) s) (e L) (q L) ∧
        Sheds s (e (l ++ L)) (q (l ++ L)) (l.foldl (fun s x => F s (some x)) s) (e L) (q L)
  | [], s, L, _, hB => ⟨rfl, hB, .refl _ _ _⟩
  | x :: l, s, L, hlt, hB => by
    have hs := hlt (List.cons_ne_nil x l)
    obtain ⟨hT, hB₁, hS₁⟩ := h s (some x) (l ++ L) (fun _ => hs) hB
    obtain ⟨k, -, -, hsh⟩ := hb s (some x) fun _ => hs
    obtain ⟨hT', hB', hS'⟩ := Frees.foldlM h hb l (F s (some x)) L
      (fun _ => linked_lt_of_shrinks _ _ hs hsh) hB₁
    exact ⟨by simpa only [List.foldlM_cons, hT, Option.some_bind] using hT', hB', hS₁.trans hS'⟩

/-- `py_obj_free_internal` on a live object: its pointers nulled, then released by the
    calls it makes, shedding the owners the nulling made pending. -/
theorem pyObjFreeInternal_frees {objT opT : PMState → Option Nat → Option PMState}
    {objF opF : PMState → Option Nat → PMState} {objC opC : PMState → Option Nat → Option (PMState × Nat)}
    (hobj : ∀ P, Frees m id (fun _ => P) objT objF) (hop : ∀ E, Frees m (fun _ => E) id opT opF)
    (hbo : Bounded (·.linked < m) objC objF) (hbp : Bounded (·.linked < m) opC opF)
    {s : PMState} {a : Addr} {o : PyObj} {E : List Addr} {P : List OAddr} (hs : s.linked ≤ m)
    (hb : Backed s E P) (ha : s.objs.get a = some o) :
    pyObjFreeInternalChecked objT opT s a = some (pyObjFreeInternal objF opF s a) ∧
      Backed (pyObjFreeInternal objF opF s a) E P ∧
      Sheds (s.modObj a fun o => { o with varname := none, val := o.val.nulled })
        (o.val.objPtrs ++ E) (o.val.operPtrs ++ P) (pyObjFreeInternal objF opF s a) E P := by
  obtain ⟨-, -, hl⟩ := shrinks_null ha
  have hn := hb.null ha
  unfold pyObjFreeInternalChecked pyObjFreeInternal
  simp only [ha]
  generalize s.modObj a (fun o => { o with varname := none, val := o.val.nulled }) = s₁ at hl hn ⊢
  have hlt : 0 < o.val.ptrCount → s₁.linked < m := fun h => by omega
  cases hv : o.val <;> rw [hv] at hn hlt <;> dsimp only
  case iter t items =>
    exact (hobj P).foldlM hbo items s₁ E (fun hne => hlt (by simpa using List.length_pos.mpr hne)) hn
  case what ops =>
    exact (hop E).foldlM hbp ops s₁ P
      (fun hne => hlt (by simpa [PyVal.ptrCount] using List.length_pos.mpr hne)) hn
  case split r =>
    exact hop E s₁ r P (fun h => hlt (by obtain ⟨p, rfl⟩ := Option.isSome_iff_exists.mp h; simp [PyVal.ptrCount])) hn
  case func mo na =>
    have hperm : (mo.toList ++ na.toList ++ E).Perm (na.toList ++ (mo.toList ++ E)) := by
      simpa only [List.append_assoc] using List.perm_append_comm_assoc _ _ _
    have hlt' : na.isSome → s₁.linked < m := fun h =>
      hlt (by obtain ⟨p, rfl⟩ := Option.isSome_iff_exists.mp h; simp)
    obtain ⟨hT₁, hB₁, hS₁⟩ := hobj P s₁ na _ hlt' (hn.perm hperm)
    obtain ⟨k, -, -, hsh₁⟩ := hbo s₁ na hlt'
    obtain ⟨hT₂, hB₂, hS₂⟩ := hobj P (objF s₁ na) mo _ (fun h => linked_lt_of_shrinks _ _
      (hlt (by obtain ⟨p, rfl⟩ := Option.isSome_iff_exists.mp h; simp)) hsh₁) hB₁
    exact ⟨by rw [hT₁]; exact hT₂, hB₂, (hS₁.perm_left hperm.symm).trans hS₂⟩
  all_goals exact ⟨rfl, hn, .refl _ _ _⟩

end Frees

/-- `py_obj_free`: the count lowered; at zero, the payload released and the object, which
    nothing released since it had no other owner, freed. -/
theorem pyObjFree_frees {n : Nat} (hobj : ∀ P, Frees n id (fun _ => P) (pyObjFreeChecked n) (pyObjFree n))
    (hop : ∀ E, Frees n (fun _ => E) id (pyopFreeChecked n) (pyopFree n)) (P : List OAddr) :
    Frees (n + 1) id (fun _ => P) (pyObjFreeChecked (n + 1)) (pyObjFree (n + 1)) := by
  rintro s (_ | a) L hq hb
  · exact ⟨by simp, by simpa using hb, by simpa using Sheds.refl s L P⟩
  change Backed s (a :: L) P at hb
  show _ ∧ Backed _ L P ∧ Sheds s (a :: L) P _ L P
  obtain ⟨o, ha⟩ := hb.live (List.mem_cons_self a L)
  have hS₁ : Sheds s (a :: L) P (s.bumpObj a (-1)) (a :: L) P :=
    Sheds.modObj (val_bump (-1)) (owners_cons_self L a)
  simp only [pyObjFreeChecked, pyObjFree, ha]
  split_ifs with hz
  · have ha₁ : (s.bumpObj a (-1)).objs.get a = some { o with refcnt := o.refcnt + -1 } := by
      simp [get_bumpObj, ha]
    have h0 : (s.bumpObj a (-1)).owners L a = 0 := by
      have := hb.objCount a
      simp only [owners, heapRefs_bumpObj, Store.held, ha, Option.map_some', Option.getD_some,
        List.count_cons_self] at this ⊢
      push_cast at this; omega
    have hlink : (s.bumpObj a (-1)).linked ≤ n :=
      ((shrinks_modObj s a _ (val_bump (-1))).1.2.2).trans (Nat.lt_succ_iff.mp (hq rfl))
    obtain ⟨hT, hB, hS⟩ := pyObjFreeInternal_frees hobj hop (frees_bounded n).1 (frees_bounded n).2.2.1
      hlink hb.bump ha₁
    have hkeep := hS.keep a (by rw [owners_null ha₁]; exact h0)
    have h0' : (pyObjFreeInternal (pyObjFree n) (pyopFree n) (s.bumpObj a (-1)) a).owners L a = 0 := by
      have := hS.owners a; rw [owners_null ha₁] at this; omega
    have hS₂ := (Sheds.null ha₁ (owners_cons_self L a)).trans
      (((hS.cons a).perm_left List.perm_middle.symm).trans ((Sheds.freeObj (owners_cons_self L a)).trans
        (Sheds.drop a)))
    simp only [hT, Option.bind_eq_bind, Option.some_bind]
    generalize pyObjFreeInternal (pyObjFree n) (pyopFree n) (s.bumpObj a (-1)) a = s₂ at hB hkeep h0' hS₂
    simp only [hkeep, modObj, Store.get_modify, ha₁, if_true, Option.map_some']
    exact ⟨trivial, hB.freeObj h0', hS₁.trans hS₂⟩
  · exact ⟨rfl, hb.bump, hS₁.trans (Sheds.drop a)⟩

/-- `pyop_free`: the count lowered; at zero, the arguments released and the oper freed. -/
theorem pyopFree_frees {n : Nat} (hobj : ∀ P, Frees n id (fun _ => P) (pyObjFreeChecked n) (pyObjFree n))
    (E : List Addr) : Frees (n + 1) (fun _ => E) id (pyopFreeChecked (n + 1)) (pyopFree (n + 1)) := by
  rintro s (_ | p) L hq hb
  · exact ⟨by simp, by simpa using hb, by simpa using Sheds.refl s E L⟩
  change Backed s E (p :: L) at hb
  show _ ∧ Backed _ E L ∧ Sheds s E (p :: L) _ E L
  obtain ⟨q, hqp⟩ := hb.liveOper (List.mem_cons_self p L)
  have hS₁ : Sheds s E (p :: L) (s.modOper p fun q => { q with refcnt := q.refcnt - 1 }) E (p :: L) :=
    Sheds.modOper stack_decOper (operOwners_cons_self L p)
  simp only [pyopFreeChecked, pyopFree, hqp]
  split_ifs with hz
  · have hb₁ := hb.bumpOper
    generalize hsb : s.modOper p (fun q => { q with refcnt := q.refcnt - 1 }) = sb at hS₁ hb₁ ⊢
    have hq₁ : sb.opers.get p = some { q with refcnt := q.refcnt - 1 } := by simp [← hsb, modOper, hqp]
    have h0 : sb.operOwners L p = 0 := by
      have := hb.operCount p
      simp only [← hsb, operOwners, operRefCount_modOper, Store.held, hqp, Option.map_some',
        Option.getD_some, List.count_cons_self] at this ⊢
      push_cast at this; omega
    have hlink : sb.linked ≤ n := hsb ▸
      ((shrinks_modOper s p _ stack_decOper).1.2.2).trans (Nat.lt_succ_iff.mp (hq rfl))
    obtain ⟨-, -, hl⟩ := shrinks_clear hq₁
    have hS₂ := Sheds.clear (E := E) hq₁ (operOwners_cons_self L p)
    have hc := hb₁.clear hq₁
    have hkc : (sb.modOper p fun q => { q with stack := [] }).operOwners L p = 0 := h0
    have hqc : ∃ q', (sb.modOper p fun q => { q with stack := [] }).opers.get p = some q' :=
      ⟨{ q with refcnt := q.refcnt - 1, stack := [] }, by simp [modOper, hq₁]⟩
    generalize sb.modOper p (fun q => { q with stack := [] }) = sc at hl hS₂ hc hkc hqc ⊢
    obtain ⟨hT, hB, hS⟩ := (hobj L).foldlM (frees_bounded n).1 q.stack sc E
      (fun hne => by have := List.length_pos.mpr hne; simp only [min_eq_left this] at hl; omega) hc
    have hS : Sheds sc (q.stack ++ E) L _ E L := hS
    have hlive := hS.keepOper p hkc
    have h0' := hS.operOwners p
    simp only [hT, Option.bind_eq_bind, Option.some_bind]
    generalize q.stack.foldl (fun s x => pyObjFree n s (some x)) sc = sf at hB hS hlive h0'
    obtain ⟨q', hq'⟩ := hqc
    simp only [hlive, hq']
    exact ⟨trivial, hB.freeOper (by omega), hS₁.trans (hS₂.trans ((hS.consOper p).trans
      ((Sheds.freeOper (operOwners_cons_self L p)).trans (Sheds.dropOper p))))⟩
  · exact ⟨rfl, hb.bumpOper, hS₁.trans (Sheds.dropOper p)⟩

/-- `py_obj_deep_free`: the payload released first, then the count lowered and the cell
    freed at zero. -/
theorem pyObjDeepFree_frees {n : Nat}
    (hobj : ∀ P, Frees n id (fun _ => P) (pyObjDeepFreeChecked n) (pyObjDeepFree n))
    (hop : ∀ E, Frees n (fun _ => E) id (pyopDeepFreeChecked n) (pyopDeepFree n)) (P : List OAddr) :
    Frees (n + 1) id (fun _ => P) (pyObjDeepFreeChecked (n + 1)) (pyObjDeepFree (n + 1)) := by
  rintro s (_ | a) L hq hb
  · exact ⟨by simp, by simpa using hb, by simpa using Sheds.refl s L P⟩
  change Backed s (a :: L) P at hb
  show _ ∧ Backed _ L P ∧ Sheds s (a :: L) P _ L P
  obtain ⟨o, ha⟩ := hb.live (List.mem_cons_self a L)
  obtain ⟨hT, hB, hS⟩ := pyObjFreeInternal_frees hobj hop (frees_bounded n).2.1 (frees_bounded n).2.2.2
    (Nat.lt_succ_iff.mp (hq rfl)) hb ha
  have hS₀ := (Sheds.null ha (owners_cons_self L a)).trans hS
  simp only [pyObjDeepFreeChecked, pyObjDeepFree, hT, Option.bind_eq_bind, Option.some_bind]
  generalize pyObjFreeInternal (pyObjDeepFree n) (pyopDeepFree n) s a = s₁ at hB hS₀
  obtain ⟨o', ha'⟩ := hB.live (List.mem_cons_self a L)
  simp only [ha']
  exact ⟨trivial, hB.releaseObj ha', hS₀.trans (Sheds.releaseObj a o')⟩

/-- `pyop_deep_free`: the arguments released first, then the count lowered and the cell
    freed at zero. -/
theorem pyopDeepFree_frees {n : Nat}
    (hobj : ∀ P, Frees n id (fun _ => P) (pyObjDeepFreeChecked n) (pyObjDeepFree n)) (E : List Addr) :
    Frees (n + 1) (fun _ => E) id (pyopDeepFreeChecked (n + 1)) (pyopDeepFree (n + 1)) := by
  rintro s (_ | p) L hq hb
  · exact ⟨by simp, by simpa using hb, by simpa using Sheds.refl s E L⟩
  change Backed s E (p :: L) at hb
  show _ ∧ Backed _ E L ∧ Sheds s E (p :: L) _ E L
  obtain ⟨q, hqp⟩ := hb.liveOper (List.mem_cons_self p L)
  obtain ⟨-, -, hl⟩ := shrinks_clear hqp
  have hc := hb.clear hqp
  have hS₁ := Sheds.clear (E := E) hqp (operOwners_cons_self L p)
  simp only [pyopDeepFreeChecked, pyopDeepFree, hqp]
  generalize s.modOper p (fun q => { q with stack := [] }) = s₁ at hl hc hS₁
  have hq₁ := hq rfl
  obtain ⟨hT, hB, hS⟩ := (hobj (p :: L)).foldlM (frees_bounded n).2.1 q.stack s₁ E
    (fun hne => by have := List.length_pos.mpr hne; simp only [min_eq_left this] at hl; omega) hc
  simp only [hT, Option.bind_eq_bind, Option.some_bind]
  generalize q.stack.foldl (fun s x => pyObjDeepFree n s (some x)) s₁ = s₂ at hB hS
  obtain ⟨q', hq'⟩ := hB.liveOper (List.mem_cons_self p L)
  simp only [hq']
  exact ⟨trivial, hB.releaseOper hq', hS₁.trans (hS.trans (Sheds.releaseOper p q'))⟩

/-- At every fuel, the four frees keep `Backed` with their pointer released, and never
    touch a freed cell. -/
theorem frees_all : ∀ n,
    (∀ P, Frees n id (fun _ => P) (pyObjFreeChecked n) (pyObjFree n)) ∧
    (∀ E, Frees n (fun _ => E) id (pyopFreeChecked n) (pyopFree n)) ∧
    (∀ P, Frees n id (fun _ => P) (pyObjDeepFreeChecked n) (pyObjDeepFree n)) ∧
    (∀ E, Frees n (fun _ => E) id (pyopDeepFreeChecked n) (pyopDeepFree n))
  | 0 => ⟨fun _ => frees_zero (by simp) (by simp), fun _ => frees_zero (by simp) (by simp),
      fun _ => frees_zero (by simp) (by simp), fun _ => frees_zero (by simp) (by simp)⟩
  | n + 1 =>
    let ⟨h₁, h₂, h₃, h₄⟩ := frees_all n
    ⟨pyObjFree_frees h₁ h₂, pyopFree_frees h₁, pyObjDeepFree_frees h₃ h₄, pyopDeepFree_frees h₃⟩

/-- `py_obj_free` as its callers run it, on a pointer they own. -/
theorem Backed.release {s : PMState} {a : Addr} {E : List Addr} {P : List OAddr} (hb : Backed s (a :: E) P) :
    pyObjFreeChecked s.freeFuel s (some a) = some (s.release (some a)) ∧ Backed (s.release (some a)) E P :=
  let ⟨h₁, h₂, _⟩ := (frees_all s.freeFuel).1 P s (some a) E (fun _ => s.linked_lt_freeFuel) hb
  ⟨h₁, h₂⟩

/-- `pyop_free` as its callers run it, on a pointer they own. -/
theorem Backed.releaseOperPtr {s : PMState} {p : OAddr} {E : List Addr} {P : List OAddr}
    (hb : Backed s E (p :: P)) :
    pyopFreeChecked s.freeFuel s (some p) = some (s.releaseOper (some p)) ∧ Backed (s.releaseOper (some p)) E P :=
  let ⟨h₁, h₂, _⟩ := (frees_all s.freeFuel).2.1 E s (some p) P (fun _ => s.linked_lt_freeFuel) hb
  ⟨h₁, h₂⟩

/-! ## `empty_state` on any state whose counts back their owners -/

section Teardown

/-- `empty_memo`: each memo value released by `py_obj_free`, which may now free it. -/
theorem emptyMemo_frees {β : Type} (R : List Addr) :
    ∀ (l : List (β × Option Addr)) (t : PMState), Backed t (l.filterMap Prod.snd ++ R) [] →
      l.foldlM (fun s e => pyObjFreeChecked s.freeFuel s e.2) t = some (l.foldl (fun s e => s.release e.2) t) ∧
        Backed (l.foldl (fun s e => s.release e.2) t) R [] ∧
        Sheds t (l.filterMap Prod.snd ++ R) [] (l.foldl (fun s e => s.release e.2) t) R []
  | [], t, hb => ⟨rfl, hb, .refl _ _ _⟩
  | (b, x) :: l, t, hb => by
    obtain ⟨hT, hB, hS⟩ := (frees_all t.freeFuel).1 [] t x (l.filterMap Prod.snd ++ R)
      (fun _ => t.linked_lt_freeFuel) (by cases x <;> simpa using hb)
    simp only [List.foldlM_cons, List.foldl_cons, hT, Option.bind_eq_bind, Option.some_bind]
    obtain ⟨h₁, h₂, h₃⟩ := emptyMemo_frees R l _ hB
    exact ⟨h₁, h₂, (show Sheds t (((b, x) :: l).filterMap Prod.snd ++ R) [] _ _ _ by
      cases x <;> simpa using hS).trans h₃⟩

/-- `metastack_deep_free` (and the two other `list_free_with` on a stack). -/
theorem metastackDeepFree_frees :
    ∀ (l : List Addr) (t : PMState) (L : List Addr), Backed t (l ++ L) [] →
      metastackDeepFreeChecked t l = some (metastackDeepFree t l) ∧ Backed (metastackDeepFree t l) L [] ∧
        Sheds t (l ++ L) [] (metastackDeepFree t l) L []
  | [], _, _, hb => ⟨rfl, hb, .refl _ _ _⟩
  | a :: l, t, L, hb => by
    obtain ⟨hT, hB, hS⟩ := (frees_all t.freeFuel).2.2.1 [] t (some a) (l ++ L) (fun _ => t.linked_lt_freeFuel) hb
    show (pyObjDeepFreeChecked t.freeFuel t (some a) >>= fun s => metastackDeepFreeChecked s l) = _ ∧ _
    rw [hT]
    obtain ⟨h₁, h₂, h₃⟩ := metastackDeepFree_frees l _ L hB
    exact ⟨h₁, h₂, hS.trans h₃⟩

theorem frames_frees :
    ∀ (ls : List (List Addr)) (t : PMState) (L : List Addr), Backed t (ls.flatten ++ L) [] →
      ls.foldlM metastackDeepFreeChecked t = some (ls.foldl metastackDeepFree t) ∧
        Backed (ls.foldl metastackDeepFree t) L [] ∧ Sheds t (ls.flatten ++ L) [] (ls.foldl metastackDeepFree t) L []
  | [], _, _, hb => ⟨rfl, hb, .refl _ _ _⟩
  | l :: ls, t, L, hb => by
    obtain ⟨h₁, h₂, h₃⟩ := metastackDeepFree_frees l t (ls.flatten ++ L) (by simpa using hb)
    simp only [List.foldlM_cons, List.foldl_cons, h₁, Option.bind_eq_bind, Option.some_bind]
    obtain ⟨h₄, h₅, h₆⟩ := frames_frees ls _ L h₂
    exact ⟨h₄, h₅, (show Sheds t ((l :: ls).flatten ++ L) [] _ _ _ by simpa using h₃).trans h₆⟩

/-- `empty_state` on a state where no cell has more owners, among the memo's values, the
    roots and the heaps, than its count says, with its frees taken together: each free
    finds its cell live, and no cell that nothing owns is touched. -/
theorem emptyState_frees (s : PMState) (hb : Backed s (s.memoVals ++ s.roots) []) :
    emptyStateChecked s = some (emptyState s) ∧ Sheds s (s.memoVals ++ s.roots) [] (emptyState s) [] [] := by
  obtain ⟨h₁, hb₁, hS₁⟩ := emptyMemo_frees s.roots s.memo { s with memo := [] } (hb.of_heaps rfl rfl)
  obtain ⟨-, -, -, hs₁⟩ := emptyMemo_bounded s 0
  obtain ⟨st₁, ms₁, ps₁⟩ := hs₁.stacks
  change _ = some (emptyMemo s) at h₁
  change Backed (emptyMemo s) _ _ at hb₁
  change Sheds { s with memo := [] } (s.memoVals ++ s.roots) [] (emptyMemo s) s.roots [] at hS₁
  have hS₀ : Sheds s (s.memoVals ++ s.roots) [] (emptyMemo s) s.roots [] :=
    (Sheds.of_heaps (by rfl) (by rfl)).trans hS₁
  simp only [emptyStateChecked, emptyState, Option.bind_eq_bind, h₁, Option.some_bind]
  generalize emptyMemo s = s₁ at hb₁ hS₀ st₁ ms₁ ps₁ ⊢
  have hr₁ : s.roots = s₁.stack ++ (s.metastack.flatten ++ s.popstack) := by
    rw [st₁]; simp only [roots, List.append_assoc]
  rw [hr₁] at hb₁ hS₀ ⊢
  obtain ⟨h₂, hb₂, hS₂⟩ := metastackDeepFree_frees s₁.stack s₁ (s.metastack.flatten ++ s.popstack) hb₁
  obtain ⟨-, -, -, hs₂⟩ := metastackDeepFree_bounded s₁.stack s₁ 0
  obtain ⟨-, ms₂, ps₂⟩ := hs₂.stacks
  simp only [h₂, Option.some_bind]
  generalize metastackDeepFree s₁ s₁.stack = s₂ at hb₂ hS₂ ms₂ ps₂ ⊢
  have hm₂ : s₂.metastack = s.metastack := ms₂.trans ms₁
  obtain ⟨h₃, hb₃, hS₃⟩ := frames_frees s₂.metastack { s₂ with stack := [] } s.popstack
    (by rw [hm₂]; exact hb₂.of_heaps rfl rfl)
  obtain ⟨-, -, -, hs₃⟩ := frames_bounded s₂.metastack { s₂ with stack := [] } 0
  obtain ⟨-, -, ps₃⟩ := hs₃.stacks
  simp only [h₃, Option.some_bind]
  generalize s₂.metastack.foldl metastackDeepFree { s₂ with stack := [] } = s₃ at hb₃ hS₃ ps₃ ⊢
  rw [hm₂] at hS₃
  have hp₃ : s₃.popstack = s.popstack := ps₃.trans (ps₂.trans ps₁)
  obtain ⟨h₄, -, hS₄⟩ := metastackDeepFree_frees s₃.popstack { s₃ with metastack := [] } []
    (by rw [hp₃, List.append_nil]; exact hb₃.of_heaps rfl rfl)
  have hS₄' : Sheds s₃ (s₃.popstack ++ []) [] _ [] [] := (Sheds.of_heaps (by rfl) (by rfl)).trans hS₄
  simp only [h₄, Option.some_bind]
  refine ⟨rfl, ?_⟩
  rw [hp₃, List.append_nil] at hS₄'
  rw [hp₃]
  exact hS₀.trans (hS₂.trans ((Sheds.of_heaps (by rfl) (by rfl)).trans (hS₃.trans
    (hS₄'.trans (Sheds.of_heaps (by rfl) (by rfl))))))

/-- `empty_state` on a state where no cell has more owners, among the memo's values, the
    roots and the heaps, than its count says: no free reads, writes or frees a freed cell. -/
theorem emptyStateChecked_of_backed (s : PMState) (hb : Backed s (s.memoVals ++ s.roots) []) :
    emptyStateChecked s = some (emptyState s) :=
  (emptyState_frees s hb).1

/-- `empty_state` leaves a cell that nothing owns as it found it: neither a stack, a saved
    frame, the memo, nor a live cell points to it. -/
theorem emptyState_keeps_unowned {s : PMState} (hb : Backed s (s.memoVals ++ s.roots) []) :
    (∀ a, s.owners (s.memoVals ++ s.roots) a = 0 → (emptyState s).objs.get a = s.objs.get a) ∧
      ∀ p, s.operRefCount p = 0 → (emptyState s).opers.get p = s.opers.get p :=
  let hS := (emptyState_frees s hb).2
  ⟨hS.keep, fun p hp => hS.keepOper p (by simpa [operOwners] using hp)⟩

end Teardown

end PickleDec
