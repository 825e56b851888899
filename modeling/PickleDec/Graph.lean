import PickleDec.Exec

/-!
# The object graph

The owning references between objects: the elements of an iterable, the two fields
of a `PY_FUNC`, and, through the opers a `PY_WHAT` records (or the oper a `PY_SPLIT`
names), the arguments of those opers. `Reach` is reachability along them, and the
roots are the three stacks `pickle_dec.c` deep-frees at the end: `stack`, the frames
saved on `metastack`, and `popstack`.

`ReachNS` leaves out the edge from a `PY_SPLIT` to its `reduce`: what remains are the
edges the handlers build by moving objects off the stack, which no handler removes.
-/

set_option autoImplicit false

namespace PickleDec

namespace PMState

/-- The arguments of the oper at `p`. -/
def operArgs (s : PMState) (p : OAddr) : List Addr := ((s.opers.get p).map PyOper.stack).getD []

/-- The objects the object at `a` owns, directly or through its opers. -/
def children (s : PMState) (a : Addr) : List Addr :=
  match s.objs.get a with
  | some o => o.val.objPtrs ++ o.val.operPtrs.flatMap s.operArgs
  | none => []

/-- `children` without the edges out of a `PY_SPLIT`. -/
def childrenNS (s : PMState) (a : Addr) : List Addr :=
  match s.objs.get a with
  | some o => o.val.objPtrs ++ o.val.whatOps.flatMap s.operArgs
  | none => []

/-- The roots: the stack, the frames saved by `MARK`, and `popstack`. -/
def roots (s : PMState) : List Addr := s.stack ++ s.metastack.flatten ++ s.popstack

end PMState

/-- A path of zero or more edges of `E` from `a` to `c`. -/
inductive Path (E : Addr → List Addr) : Addr → Addr → Prop
  | refl (a : Addr) : Path E a a
  | step {a b c : Addr} : b ∈ E a → Path E b c → Path E a c

theorem Path.trans {E : Addr → List Addr} {a b c : Addr} (hab : Path E a b) (hbc : Path E b c) :
    Path E a c := by
  induction hab with
  | refl => exact hbc
  | step hmem _ ih => exact .step hmem (ih hbc)

theorem Path.mono {E E' : Addr → List Addr} (hE : ∀ a, ∀ b ∈ E a, b ∈ E' a) {a c : Addr}
    (h : Path E a c) : Path E' a c := by
  induction h with
  | refl => exact .refl _
  | step hmem _ ih => exact .step (hE _ _ hmem) ih

/-- A path is empty or ends with an edge into its end. -/
theorem Path.eq_or_mem {E : Addr → List Addr} {a c : Addr} (h : Path E a c) :
    a = c ∨ ∃ b, c ∈ E b := by
  induction h with
  | refl => exact .inl rfl
  | step hmem _ ih =>
    rcases ih with rfl | hb
    · exact .inr ⟨_, hmem⟩
    · exact .inr hb

/-- A path to a node outside `P`, where the nodes of `P` have no edges out, keeps to
    the edges into nodes outside `P`: those are all it needs of `E'`. -/
theorem Path.avoid {E E' : Addr → List Addr} (P : Addr → Prop)
    (hE : ∀ y, ∀ z ∈ E y, ¬ P z → z ∈ E' y) (hP : ∀ l, P l → E l = []) {r a : Addr}
    (h : Path E r a) (ha : ¬ P a) : Path E' r a := by
  induction h with
  | refl => exact .refl _
  | @step r b a hmem hp ih =>
    have hb : ¬ P b := fun hb => by
      cases hp with
      | refl => exact ha hb
      | step hmem' _ => simp [hP b hb] at hmem'
    exact .step (hE r b hmem hb) (ih ha)

/-- `b` is reachable from `a` along owning references (in zero or more steps). -/
abbrev Reach (s : PMState) : Addr → Addr → Prop := Path s.children

/-- `Reach` along the edges that do not leave a `PY_SPLIT`. -/
abbrev ReachNS (s : PMState) : Addr → Addr → Prop := Path s.childrenNS

theorem ReachNS.toReach {s : PMState} {a c : Addr} (h : ReachNS s a c) : Reach s a c :=
  Path.mono (fun a b hb => by
    unfold PMState.childrenNS at hb; unfold PMState.children
    split at hb
    · next o _ =>
      rcases List.mem_append.mp hb with hb | hb
      · exact List.mem_append_left _ hb
      · refine List.mem_append_right _ ?_
        cases hv : o.val <;> simp_all [PyVal.whatOps, PyVal.operPtrs]
    · simp at hb) h

/-- No object reachable from the VM stack lies on a cycle. -/
def StackAcyclic (s : PMState) : Prop :=
  ∀ r ∈ s.stack, ∀ a, Reach s r a → ∀ b ∈ s.children a, ¬ Reach s b a

end PickleDec
