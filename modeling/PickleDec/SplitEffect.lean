import PickleDec.Preserve

/-!
# What the `REDUCE` split pass leaves

`add_splits` walks the graph of the `REDUCE` argument along the elements of iterables and
the arguments of the opers of a `PY_WHAT` (`splitChildren`), marks each object it meets
with the new generation, and gives every list, set, frozenset and dict it meets the new
split as its last element, in place of a trailing split (`splitEffect`).

The walk is a depth-first search, and its invariant `Dfs` sorts the objects by their
mark: an unmarked object is as the pass found it; a marked one is on the walk's stack
(its payload still the old one) or finished (`Settled`, its children marked); every
marked object is reachable from the argument. From it: the pass answers `true` within the
fuel `split_reduce` gives it, on every graph, shared or cyclic, and the objects it marks
are exactly the reachable ones (`splitReduce_adds`).
-/

set_option autoImplicit false

namespace PickleDec

open PMState

/-! ## The graph the pass walks, and the payloads it leaves -/

/-- The objects `add_splits` calls itself on from a payload, `args` the argument lists of
    the opers: the elements of an iterable, the arguments of a `PY_WHAT`'s opers. -/
def PyVal.splitArgs (args : OAddr → List Addr) : PyVal → List Addr
  | .iter _ items => items
  | .what ops => ops.flatMap args
  | _ => []

/-- An object with its count forgotten. -/
def PyObj.uncounted (o : PyObj) : PyObj := { o with refcnt := 0 }

/-- A cell seen again: freed, or holding the same object up to its count. -/
def Recounted (c c' : Option PyObj) : Prop := c' = none ∨ c'.map PyObj.uncounted = c.map PyObj.uncounted

namespace PMState

/-- The objects `add_splits` calls itself on from the object at `a`. It follows neither
    the fields of a `PY_FUNC` nor a `PY_SPLIT`. -/
def splitChildren (s : PMState) (a : Addr) : List Addr :=
  ((s.objs.get a).map fun o => o.val.splitArgs s.operArgs).getD []

/-- Reachability along `splitChildren`. -/
abbrev SplitReach (s : PMState) : Addr → Addr → Prop := Path s.splitChildren

/-- A list without its last element when that is a `PY_SPLIT`. -/
def dropTrailingSplit (s : PMState) (xs : List Addr) : List Addr :=
  match popLast xs with
  | some (rest, last) => if s.typeOf last = some .split then rest else xs
  | none => xs

/-- The payload a reached object is left with, `S` the pass's split: a list, set,
    frozenset or dict ends in `S`, after a trailing split is dropped; a tuple and every
    other payload stay. -/
def splitEffect (s : PMState) (S : Addr) : PyVal → PyVal
  | .iter t xs => if t = .tuple then .iter t xs else .iter t (s.dropTrailingSplit xs ++ [S])
  | v => v

/-- The object at `b`, if there is one, carries the mark `g`. -/
def Marked (g : Nat) (s : PMState) (b : Addr) : Prop := ∀ o, s.objs.get b = some o → o.recurse = g

variable {s s' : PMState}

theorem splitChildren_of_get {a : Addr} {o : PyObj} (h : s.objs.get a = some o) :
    s.splitChildren a = o.val.splitArgs s.operArgs := by
  simp [splitChildren, h]

/-- The last element decides what `dropTrailingSplit` drops. -/
theorem dropTrailingSplit_congr {xs : List Addr} (h : ∀ y ∈ xs, s'.typeOf y = s.typeOf y) :
    s'.dropTrailingSplit xs = s.dropTrailingSplit xs := by
  unfold dropTrailingSplit
  split
  · next rest last hp =>
    rw [h last (by rw [popLast_eq_some] at hp; simp [hp])]
  · rfl

theorem splitEffect_congr (S : Addr) {v : PyVal} (h : ∀ y ∈ v.objPtrs, s'.typeOf y = s.typeOf y) :
    s'.splitEffect S v = s.splitEffect S v := by
  cases v <;> simp only [splitEffect]
  case iter t xs => rw [dropTrailingSplit_congr (show ∀ y ∈ xs, s'.typeOf y = s.typeOf y from h)]

@[simp] theorem splitEffect_type (S : Addr) (v : PyVal) : (s.splitEffect S v).type = v.type := by
  cases v <;> simp only [splitEffect]
  split_ifs <;> rfl

end PMState

/-- Every object a live one leads the pass to is live. -/
theorem Inv.live_of_splitChild {s : PMState} {h : List Addr} (hi : Inv s h) {b y : Addr}
    (hy : y ∈ s.splitChildren b) : ∃ o, s.objs.get y = some o := by
  cases hb : s.objs.get b with
  | none => simp [splitChildren, hb] at hy
  | some o =>
    rw [splitChildren_of_get hb] at hy
    cases hv : o.val <;> simp only [PyVal.splitArgs, hv, List.not_mem_nil, List.mem_flatMap] at hy
    case iter => exact hi.live_of_ptr hb (by simp [hv, hy])
    case what ops =>
      obtain ⟨p, hp, hy⟩ := hy
      obtain ⟨q, hq⟩ := hi.operLive_of_ptr hb (show p ∈ o.val.operPtrs by simp [hv, hp])
      exact hi.live_of_arg hq (by simpa [operArgs, hq] using hy)

/-! ## Cells seen again -/

namespace Recounted

variable {c₁ c₂ c₃ : Option PyObj}

theorem refl (c : Option PyObj) : Recounted c c := .inr rfl

theorem trans (h₁ : Recounted c₁ c₂) (h₂ : Recounted c₂ c₃) : Recounted c₁ c₃ := by
  rcases h₂ with h | h
  · exact .inl h
  · rcases h₁ with rfl | h'
    · exact .inl (Option.map_eq_none'.mp h)
    · exact .inr (h.trans h')

theorem bump (c : Option PyObj) (d : Int) :
    Recounted c (c.map fun o => { o with refcnt := o.refcnt + d }) :=
  .inr (by cases c <;> rfl)

/-- A cell still holding an object keeps the payload and the mark it had. -/
theorem eq_of_some (h : Recounted c₁ c₂) {o : PyObj} (ho : c₂ = some o) :
    ∃ o₁, c₁ = some o₁ ∧ o.val = o₁.val ∧ o.recurse = o₁.recurse := by
  rcases h with rfl | h
  · cases ho
  · subst ho
    cases c₁ with
    | none => cases h
    | some o₁ =>
      simp only [Option.map_some', Option.some.injEq] at h
      have h₁ := congrArg PyObj.val h
      have h₂ := congrArg PyObj.recurse h
      exact ⟨o₁, rfl, h₁, h₂⟩

theorem marked {g : Nat} (h : Recounted c₁ c₂) (hm : ∀ o, c₁ = some o → o.recurse = g) :
    ∀ o, c₂ = some o → o.recurse = g := fun o ho => by
  obtain ⟨o₁, h₁, -, hr⟩ := h.eq_of_some ho
  rw [hr, hm o₁ h₁]

/-- The converse, for a cell that still holds an object. -/
theorem marked_back {g : Nat} (h : Recounted c₁ c₂) (hs : c₂.isSome)
    (hm : ∀ o, c₂ = some o → o.recurse = g) : ∀ o, c₁ = some o → o.recurse = g := fun o ho => by
  obtain ⟨o₂, ho₂⟩ := Option.isSome_iff_exists.mp hs
  obtain ⟨o₁, h₁, -, hr⟩ := h.eq_of_some ho₂
  rw [h₁] at ho; cases ho
  rw [← hr]; exact hm o₂ ho₂

end Recounted

/-! ## `itter_add_split` touches its list, the split it drops and `S` -/

/-- `itter_add_split s x S` on the iterable `x`: `x` gets `dropTrailingSplit xs ++ [S]`;
    the other objects it touches are splits (`S` and the trailing split it releases), which
    only change count or are freed; the opers keep their arguments. -/
theorem itterAddSplit_frame {s : PMState} {h : List Addr} (hi : Inv s h) {x S : Addr} {o : PyObj}
    {t : IterType} {xs : List Addr} (hS : s.IsSplit S) (hSx : S ∉ xs) (hc : s.objs.get x = some o)
    (hv : o.val = .iter t xs) :
    (itterAddSplit s x S).2.objs.get x = some { o with val := .iter t (s.dropTrailingSplit xs ++ [S]) } ∧
    (∀ b, x ≠ b → (itterAddSplit s x S).2.objs.get b = s.objs.get b ∨
      ((b = S ∨ b ∈ xs) ∧ s.IsSplit b ∧ Recounted (s.objs.get b) ((itterAddSplit s x S).2.objs.get b))) ∧
    (∀ p, ((itterAddSplit s x S).2.opers.get p).map PyOper.stack = (s.opers.get p).map PyOper.stack) ∧
    (itterAddSplit s x S).2.recurse = s.recurse := by
  have hxS : x ≠ S := by
    rintro rfl
    simp [IsSplit, typeOf, hc, PyObj.type, hv, PyVal.type] at hS; cases t <;> cases hS
  /- the append, from the state `s₁` the drop leaves -/
  have append : ∀ (s₁ : PMState) (ys : List Addr), s₁.objs.get x = some { o with val := .iter t ys } →
      s₁.IsSplit S →
      ((s₁.setItems x (s₁.itemsOf x ++ [S])).bumpObj S 1).objs.get x =
        some { o with val := .iter t (ys ++ [S]) } ∧
      ∀ b, x ≠ b → ((s₁.setItems x (s₁.itemsOf x ++ [S])).bumpObj S 1).objs.get b = s₁.objs.get b ∨
        (b = S ∧ s₁.IsSplit b ∧
          Recounted (s₁.objs.get b) (((s₁.setItems x (s₁.itemsOf x ++ [S])).bumpObj S 1).objs.get b)) := by
    intro s₁ ys h₁ hS₁
    rw [itemsOf_of_iter s₁ h₁ rfl]
    refine ⟨by simp only [bumpObj, modObj_objs, Store.get_modify, if_neg (Ne.symm hxS), get_setItems,
      if_true, h₁, Option.map_some']; rfl, fun b hxb => ?_⟩
    by_cases hbS : S = b
    · subst hbS
      exact .inr ⟨rfl, hS₁, by simpa [bumpObj, modObj, get_setItems, hxb] using Recounted.bump _ 1⟩
    · exact .inl (by simp [bumpObj, modObj, get_setItems, hxb, hbS])
  unfold itterAddSplit
  rw [itemsOf_of_iter s hc hv]
  dsimp only
  split
  · next rest last hpop =>
    rw [popLast_eq_some] at hpop
    subst hpop
    split_ifs with hl
    · /- a trailing split is released first -/
      have hxl : x ≠ last := by
        rintro rfl
        simp [typeOf, hc, PyObj.type, hv, PyVal.type] at hl; cases t <;> cases hl
      obtain ⟨ol, r, hol, hvl⟩ := exists_split_of_isSplit s hl
      have hol' : (s.setItems x rest).objs.get last = some ol := by simp [get_setItems, hxl, hol]
      obtain ⟨hkeep, hlast, hops⟩ := release_split_frame hol' hvl fun p hp => hi.reduce_pos hol hvl p hp
      obtain ⟨objs, opers, hrel⟩ := heapsOnly_release (s.setItems x rest) (some last)
      generalize (s.setItems x rest).release (some last) = s₂ at hkeep hlast hops hrel ⊢
      have h₁ : s₂.objs.get x = some { o with val := .iter t rest } := by
        rw [hkeep x (Ne.symm hxl), get_setItems_self s hc hv]
      have hSl : last ≠ S := fun h => hSx (by simp [h])
      have hS₀ : s₂.objs.get S = s.objs.get S := by
        rw [hkeep S hSl]; simp [get_setItems, hxS]
      obtain ⟨hx', hb'⟩ := append s₂ rest h₁ (by rw [IsSplit, typeOf, hS₀]; exact hS)
      have hdrop : s.dropTrailingSplit (rest ++ [last]) = rest := by simp [dropTrailingSplit, hl]
      refine ⟨by rw [hdrop]; exact hx', fun b hxb => ?_, hops, by rw [hrel]; rfl⟩
      rcases hb' b hxb with h | ⟨hbS, -, h₃⟩
      · by_cases hlb : last = b
        · subst hlb
          refine .inr ⟨.inr (by simp), hl, ?_⟩
          rw [h, hol]
          rcases hlast with h0 | h0 <;> rw [h0]
          exacts [.inl rfl, Recounted.bump (some ol) (-1)]
        · exact .inl (by rw [h, hkeep b hlb]; simp [get_setItems, hxb])
      · subst hbS
        rw [hS₀] at h₃
        exact .inr ⟨.inl rfl, hS, h₃⟩
    · have hdrop : s.dropTrailingSplit (rest ++ [last]) = rest ++ [last] := by
        simp [dropTrailingSplit, hl]
      obtain ⟨hx', hb'⟩ := append s (rest ++ [last]) (by simp [hc, ← hv]) hS
      refine ⟨by rw [hdrop]; exact hx', fun b hxb => ?_, fun _ => rfl, rfl⟩
      rcases hb' b hxb with h | ⟨rfl, h₂, h₃⟩
      · exact .inl h
      · exact .inr ⟨.inl rfl, h₂, h₃⟩
  · next hpop =>
    rw [popLast_eq_none] at hpop
    subst hpop
    obtain ⟨hx', hb'⟩ := append s [] (by simp [hc, ← hv]) hS
    refine ⟨by simpa [dropTrailingSplit] using hx', fun b hxb => ?_, fun _ => rfl, rfl⟩
    rcases hb' b hxb with h | ⟨rfl, h₂, h₃⟩
    · exact .inl h
    · exact .inr ⟨.inl rfl, h₂, h₃⟩

/-! ## Marks -/

namespace PMState

variable {s : PMState} {g : Nat}

theorem marked_mark (s : PMState) (g : Nat) (x : Addr) :
    (s.modObj x fun o => { o with recurse := g }).Marked g x := fun o h => by
  simp only [modObj_objs, Store.get_modify, if_true] at h
  obtain ⟨o', -, rfl⟩ := Option.map_eq_some'.mp h; rfl

theorem marked_modObj_of_ne {x b : Addr} (f : PyObj → PyObj) (hxb : x ≠ b) :
    (s.modObj x f).Marked g b ↔ s.Marked g b := by
  simp [Marked, hxb]

theorem Marked.mark {b : Addr} (h : s.Marked g b) (x : Addr) :
    (s.modObj x fun o => { o with recurse := g }).Marked g b := by
  by_cases hxb : x = b
  · subst hxb; exact marked_mark s g x
  · exact (marked_modObj_of_ne _ hxb).mpr h

theorem marked_of_get {b : Addr} {o : PyObj} (h : s.objs.get b = some { o with recurse := g }) :
    s.Marked g b := fun o' h' => by rw [h] at h'; cases h'; rfl

end PMState

namespace PassOk

variable {S : Addr} {s₀ s : PMState}

/-- A live object has its tag from the start of the pass. -/
theorem typeOf_eq_of_live (hp : PassOk S s₀ s) {y : Addr} (hy : ∃ o, s.objs.get y = some o) :
    s.typeOf y = s₀.typeOf y := by
  rcases hp.types y with h | ⟨-, hn⟩
  · exact h
  · obtain ⟨o, ho⟩ := hy; rw [ho] at hn; cases hn

theorem isSplit_start (hp : PassOk S s₀ s) {y : Addr} (h : s.IsSplit y) : s₀.IsSplit y := by
  rcases hp.types y with h' | ⟨hs, -⟩
  · rwa [IsSplit, ← h']
  · exact hs

end PassOk

/-! ## The loops, under any invariant -/

section Loops

variable (P : PMState → Prop) (M : PMState → Addr → Prop) {add : PMState → Addr → Bool × PMState}
  {D : List Addr}

/-- `split_iter_recures` over calls that each keep `P`, establish `M` of their object
    and keep `M` of every other: it answers `true`, keeps `P`, and establishes `M` of
    all its objects. -/
theorem splitIterRecures_all
    (hadd : ∀ s y, P s → y ∈ D → ∃ s', add s y = (true, s') ∧ P s' ∧ M s' y ∧ ∀ z, M s z → M s' z) :
    ∀ (ys : List Addr) (s : PMState), (∀ y ∈ ys, y ∈ D) → P s →
      ∃ s', splitIterRecures add s ys = (true, s') ∧ P s' ∧ (∀ y ∈ ys, M s' y) ∧ ∀ z, M s z → M s' z
  | [], s, _, hP => ⟨s, rfl, hP, by simp, fun _ h => h⟩
  | y :: ys, s, hD, hP => by
    obtain ⟨s₁, h₁, hP₁, hM₁, hk₁⟩ := hadd s y hP (hD y (List.mem_cons_self _ _))
    obtain ⟨s₂, h₂, hP₂, hM₂, hk₂⟩ :=
      splitIterRecures_all hadd ys s₁ (fun z hz => hD z (List.mem_cons_of_mem _ hz)) hP₁
    refine ⟨s₂, by simp only [splitIterRecures, h₁, h₂], hP₂, fun z hz => ?_, fun z hz => hk₂ z (hk₁ z hz)⟩
    rcases List.mem_cons.mp hz with rfl | hz
    · exact hk₂ z hM₁
    · exact hM₂ z hz

/-- `split_what_recures` likewise, when `P` fixes the opers' arguments as `E`. -/
theorem splitWhatRecures_all {E : OAddr → List Addr}
    (hadd : ∀ s y, P s → y ∈ D → ∃ s', add s y = (true, s') ∧ P s' ∧ M s' y ∧ ∀ z, M s z → M s' z)
    (hE : ∀ s, P s → ∀ p, ((s.opers.get p).map PyOper.stack).getD [] = E p) :
    ∀ (ps : List OAddr) (s : PMState), (∀ p ∈ ps, ∀ y ∈ E p, y ∈ D) → P s →
      ∃ s', splitWhatRecures add s ps = (true, s') ∧ P s' ∧ (∀ p ∈ ps, ∀ y ∈ E p, M s' y) ∧
        ∀ z, M s z → M s' z
  | [], s, _, hP => ⟨s, rfl, hP, by simp, fun _ h => h⟩
  | p :: ps, s, hD, hP => by
    obtain ⟨s₁, h₁, hP₁, hM₁, hk₁⟩ :=
      splitIterRecures_all P M hadd (E p) s (hD p (List.mem_cons_self _ _)) hP
    obtain ⟨s₂, h₂, hP₂, hM₂, hk₂⟩ :=
      splitWhatRecures_all hadd hE ps s₁ (fun p' hp' => hD p' (List.mem_cons_of_mem _ hp')) hP₁
    refine ⟨s₂, by simp only [splitWhatRecures, hE s hP p, h₁, h₂], hP₂, fun p' hp' y hy => ?_,
      fun z hz => hk₂ z (hk₁ z hz)⟩
    rcases List.mem_cons.mp hp' with rfl | hp'
    · exact hk₂ y (hM₁ y hy)
    · exact hM₂ p' hp' y hy

end Loops

/-! ## The invariant of the walk -/

/-- What the walk keeps from its start `s₀`, whatever it has visited: `S` is the pass's
    split, `root` the `REDUCE` argument, `s₀.recurse` the new generation. -/
structure PassFrame (s₀ : PMState) (S root : Addr) (s : PMState) : Prop where
  pass : PassOk S s₀ s
  recurse : s.recurse = s₀.recurse
  opers : ∀ p, (s.opers.get p).map PyOper.stack = (s₀.opers.get p).map PyOper.stack
  split : Recounted (s₀.objs.get S) (s.objs.get S)
  fresh : ∀ b, b ≠ S → ¬ s.Marked s₀.recurse b → s.objs.get b = s₀.objs.get b
  reach : ∀ b, s.Marked s₀.recurse b → (s₀.objs.get b).isSome → s₀.SplitReach root b

/-- How an object the walk has finished with looks: with the payload `splitEffect` gives
    and the new mark; a split may also have lost references or been freed. -/
def Settled (s₀ : PMState) (S b : Addr) (c : Option PyObj) : Prop :=
  c = (s₀.objs.get b).map (fun o => { o with val := s₀.splitEffect S o.val, recurse := s₀.recurse }) ∨
    s₀.IsSplit b ∧ Recounted ((s₀.objs.get b).map fun o => { o with recurse := s₀.recurse }) c

/-- The invariant of `add_splits`: `A` are the objects on the walk's stack, marked and
    still as they were; every other marked object is settled and has its children marked. -/
structure Dfs (s₀ : PMState) (S root : Addr) (A : List Addr) (s : PMState)
    extends PassFrame s₀ S root s : Prop where
  nodup : A.Nodup
  active : ∀ b ∈ A, ¬ s₀.IsSplit b ∧
    ∃ o, s₀.objs.get b = some o ∧ s.objs.get b = some { o with recurse := s₀.recurse }
  done : ∀ b, b ∉ A → s.Marked s₀.recurse b →
    Settled s₀ S b (s.objs.get b) ∧ ∀ c ∈ s₀.splitChildren b, s.Marked s₀.recurse c

variable {s₀ s : PMState} {S root : Addr} {A : List Addr}

/-- A split finished with stays settled when it loses a reference or is freed. -/
theorem Settled.recount {b : Addr} {c c' : Option PyObj} (h : Settled s₀ S b c) (hsp : s₀.IsSplit b)
    (h' : Recounted c c') : Settled s₀ S b c' := by
  refine .inr ⟨hsp, ?_⟩
  rcases h with rfl | ⟨-, h⟩
  · obtain ⟨o, r, ho, hv⟩ := exists_split_of_isSplit s₀ hsp
    rw [ho] at h' ⊢
    simpa [splitEffect, hv] using h'
  · exact h.trans h'

/-- A split finished with keeps its payload, or is freed. -/
theorem Settled.val {b : Addr} {c : Option PyObj} (h : Settled s₀ S b c) (hsp : s₀.IsSplit b) :
    c = none ∨ c.map PyObj.val = (s₀.objs.get b).map PyObj.val := by
  obtain ⟨o, r, ho, hv⟩ := exists_split_of_isSplit s₀ hsp
  rcases h with rfl | ⟨-, h⟩
  · exact .inr (by simp [ho, splitEffect, hv])
  · cases hc : c with
    | none => exact .inl rfl
    | some o' =>
      obtain ⟨o₁, h₁, hv₁, -⟩ := h.eq_of_some hc
      rw [ho] at h₁; cases h₁
      exact .inr (by simp [ho, hv₁])

namespace PassFrame

theorem operArgs_eq (hf : PassFrame s₀ S root s) : s.operArgs = s₀.operArgs :=
  funext fun p => by simp only [operArgs, hf.opers p]

/-- Marking an object the walk reaches. -/
theorem mark (hf : PassFrame s₀ S root s) {x : Addr} (hxS : x ≠ S) (hr : s₀.SplitReach root x) :
    PassFrame s₀ S root (s.modObj x fun o => { o with recurse := s₀.recurse }) where
  pass := by have := hf.pass.mark x; rwa [hf.recurse] at this
  recurse := hf.recurse
  opers := hf.opers
  split := by simpa [hxS] using hf.split
  fresh b hb hm := by
    have hxb : x ≠ b := by rintro rfl; exact hm (marked_mark s _ x)
    rw [marked_modObj_of_ne _ hxb] at hm
    simpa [hxb] using hf.fresh b hb hm
  reach b hm := by
    by_cases hxb : x = b
    · subst hxb; exact fun _ => hr
    · exact hf.reach b ((marked_modObj_of_ne _ hxb).mp hm)

end PassFrame

namespace Dfs

theorem marked_of_mem (hd : Dfs s₀ S root A s) {b : Addr} (hb : b ∈ A) : s.Marked s₀.recurse b :=
  let ⟨_, _, _, h⟩ := hd.active b hb; marked_of_get h

/-- The objects on the walk's stack are distinct and allocated: the stack is no deeper
    than the heap is long. -/
theorem length_le (hd : Dfs s₀ S root A s) : A.length ≤ s₀.objs.length := by
  have := (hd.nodup.subperm fun b hb =>
    List.mem_range.mpr (let ⟨_, _, h, _⟩ := hd.active b hb; Store.lt_of_get h)).length_le
  simpa using this

theorem live_of_child (hd : Dfs s₀ S root A s) {x y : Addr} (hx : x ∈ A)
    (hy : y ∈ s₀.splitChildren x) : ∃ o, s.objs.get y = some o := by
  obtain ⟨-, o, h0, hs⟩ := hd.active x hx
  refine hd.pass.inv.live_of_splitChild (show y ∈ s.splitChildren x from ?_)
  rw [splitChildren_of_get hs, hd.operArgs_eq]
  rwa [splitChildren_of_get h0] at hy

/-- At the end of the walk every object reachable from a marked one is marked. -/
theorem marked_of_reach (hd : Dfs s₀ S root [] s) {a b : Addr} (ha : s.Marked s₀.recurse a)
    (hab : s₀.SplitReach a b) : s.Marked s₀.recurse b := by
  induction hab with
  | refl => exact ha
  | step hmem _ ih => exact ih ((hd.done _ (List.not_mem_nil _) ha).2 _ hmem)

theorem init (hi : Inv s₀ [S]) (hnew : ∀ b o, s₀.objs.get b = some o → o.recurse < s₀.recurse) :
    Dfs s₀ S root [] s₀ where
  pass := ⟨hi, .refl s₀⟩
  recurse := rfl
  opers _ := rfl
  split := .refl _
  fresh _ _ _ := rfl
  reach b hm hb := by
    obtain ⟨o, ho⟩ := Option.isSome_iff_exists.mp hb
    exact absurd (hm o ho) (Nat.ne_of_lt (hnew b o ho))
  nodup := List.nodup_nil
  active _ h := absurd h (List.not_mem_nil _)
  done b _ hm := by
    have h0 : s₀.objs.get b = none := by
      cases h : s₀.objs.get b with
      | none => rfl
      | some o => exact absurd (hm o h) (Nat.ne_of_lt (hnew b o h))
    exact ⟨.inl (by simp [h0]), fun c hc => by simp [splitChildren, h0] at hc⟩

/-- What marking `x` keeps of another object already finished with. -/
theorem done_mark (hd : Dfs s₀ S root A s) {x b : Addr} (hxb : x ≠ b) (hb : b ∉ A)
    (hm : (s.modObj x fun o => { o with recurse := s₀.recurse }).Marked s₀.recurse b) :
    Settled s₀ S b ((s.modObj x fun o => { o with recurse := s₀.recurse }).objs.get b) ∧
      ∀ c ∈ s₀.splitChildren b, (s.modObj x fun o => { o with recurse := s₀.recurse }).Marked s₀.recurse c := by
  obtain ⟨h1, h2⟩ := hd.done b hb ((marked_modObj_of_ne _ hxb).mp hm)
  exact ⟨by simpa [hxb] using h1, fun c hc => (h2 c hc).mark x⟩

/-- `add_splits` enters an unmarked iterable or `PY_WHAT`: it goes on the walk's stack. -/
theorem enter (hd : Dfs s₀ S root A s) {x : Addr} {o : PyObj} (hxS : x ≠ S)
    (hr : s₀.SplitReach root x) (hc : s.objs.get x = some o) (hu : o.recurse ≠ s₀.recurse)
    (hns : ¬ s₀.IsSplit x) :
    Dfs s₀ S root (x :: A) (s.modObj x fun o => { o with recurse := s₀.recurse }) := by
  have hm : ¬ s.Marked s₀.recurse x := fun h => hu (h o hc)
  have h0 : s₀.objs.get x = some o := (hd.fresh x hxS hm).symm.trans hc
  have hxA : x ∉ A := fun h => hm (hd.marked_of_mem h)
  refine { hd.toPassFrame.mark hxS hr with
    nodup := List.nodup_cons.mpr ⟨hxA, hd.nodup⟩, active := fun b hb => ?_, done := fun b hb hmb => ?_ }
  · rcases List.mem_cons.mp hb with rfl | hb
    · exact ⟨hns, o, h0, by simp [hc]⟩
    · have hxb : x ≠ b := by rintro rfl; exact hxA hb
      simpa [hxb] using hd.active b hb
  · exact hd.done_mark (fun h => hb (h ▸ List.mem_cons_self _ _)) (fun h => hb (List.mem_cons_of_mem _ h)) hmb

/-- `add_splits` on an unmarked object without children that keeps its payload: it is
    marked and finished at once. -/
theorem leaf (hd : Dfs s₀ S root A s) {x : Addr} {o : PyObj} (hxS : x ≠ S)
    (hr : s₀.SplitReach root x) (hc : s.objs.get x = some o) (hu : o.recurse ≠ s₀.recurse)
    (hleaf : o.val.splitArgs s₀.operArgs = []) (heff : s₀.splitEffect S o.val = o.val) :
    Dfs s₀ S root A (s.modObj x fun o => { o with recurse := s₀.recurse }) := by
  have hm : ¬ s.Marked s₀.recurse x := fun h => hu (h o hc)
  have h0 : s₀.objs.get x = some o := (hd.fresh x hxS hm).symm.trans hc
  have hxA : x ∉ A := fun h => hm (hd.marked_of_mem h)
  refine { hd.toPassFrame.mark hxS hr with
    nodup := hd.nodup, active := fun b hb => ?_, done := fun b hb hmb => ?_ }
  · have hxb : x ≠ b := by rintro rfl; exact hxA hb
    simpa [hxb] using hd.active b hb
  · by_cases hxb : x = b
    · subst hxb
      refine ⟨.inl (by simp [hc, h0, heff]), fun c hc' => ?_⟩
      rw [splitChildren_of_get h0, hleaf] at hc'; cases hc'
    · exact hd.done_mark hxb hb hmb

/-- A tuple or `PY_WHAT` whose children are all marked is finished with, unchanged. -/
theorem finish {x : Addr} (hd : Dfs s₀ S root (x :: A) s)
    (hch : ∀ c ∈ s₀.splitChildren x, s.Marked s₀.recurse c)
    (heff : ∀ o, s₀.objs.get x = some o → s₀.splitEffect S o.val = o.val) : Dfs s₀ S root A s where
  toPassFrame := hd.toPassFrame
  nodup := (List.nodup_cons.mp hd.nodup).2
  active b hb := hd.active b (List.mem_cons_of_mem _ hb)
  done b hb hmb := by
    by_cases hxb : x = b
    · subst hxb
      obtain ⟨-, o, h0, hs⟩ := hd.active x (List.mem_cons_self _ _)
      exact ⟨.inl (by simp [hs, h0, heff o h0]), hch⟩
    · exact hd.done b (by simp [hb, Ne.symm hxb]) hmb

/-- A list, set, frozenset or dict whose children are all marked is finished with by
    `itter_add_split`: it gets `S` in place of a trailing split. -/
theorem finishList {x : Addr} (hd : Dfs s₀ S root (x :: A) s) (hS : s₀.IsSplit S)
    (hSin : S ∉ s₀.splitChildren x) (hch : ∀ c ∈ s₀.splitChildren x, s.Marked s₀.recurse c)
    {o : PyObj} {t : IterType} {xs : List Addr} (h0 : s₀.objs.get x = some o)
    (hv : o.val = .iter t xs) (ht : t ≠ .tuple) :
    Dfs s₀ S root A (itterAddSplit s x S).2 ∧ (itterAddSplit s x S).2.Marked s₀.recurse x ∧
      ∀ z, s.Marked s₀.recurse z → (itterAddSplit s x S).2.Marked s₀.recurse z := by
  obtain ⟨hns, o', h0', hs⟩ := hd.active x (List.mem_cons_self _ _)
  rw [h0] at h0'; cases h0'
  have hxs : s₀.splitChildren x = xs := by rw [splitChildren_of_get h0, hv]; rfl
  rw [hxs] at hSin hch
  have hv' : ({ o with recurse := s₀.recurse } : PyObj).val = .iter t xs := hv
  have hpass := hd.pass.itterAddSplit hS hs hv' ht
  obtain ⟨hx, hother, hops, hrec⟩ := itterAddSplit_frame hd.pass.inv (hd.pass.isSplit hS) hSin hs hv'
  set s' := (itterAddSplit s x S).2
  have hxS : x ≠ S := fun h => hns (h ▸ hS)
  have hxA : x ∉ A := (List.nodup_cons.mp hd.nodup).1
  have hmx : s'.Marked s₀.recurse x := fun o' h => by rw [hx] at h; cases h; rfl
  have hmono : ∀ b, s.Marked s₀.recurse b → s'.Marked s₀.recurse b := fun b hb => by
    by_cases hxb : x = b
    · exact hxb ▸ hmx
    · rcases hother b hxb with h | ⟨-, -, h⟩
      · intro o' ho; rw [h] at ho; exact hb o' ho
      · exact h.marked hb
  have hback : ∀ b, s'.Marked s₀.recurse b → s.Marked s₀.recurse b := fun b hb => by
    by_cases hxb : x = b
    · exact hxb ▸ hd.marked_of_mem (List.mem_cons_self _ _)
    · rcases hother b hxb with h | ⟨rfl | hbx, -, h⟩
      · intro o' ho; rw [← h] at ho; exact hb o' ho
      · exact h.marked_back
          (Option.isSome_iff_exists.mpr (hpass.inv.live_of_handle (List.mem_singleton_self _))) hb
      · exact hch b hbx
  have hdrop : s.dropTrailingSplit xs = s₀.dropTrailingSplit xs := dropTrailingSplit_congr fun y hy =>
    hd.pass.typeOf_eq_of_live (hd.live_of_child (List.mem_cons_self _ _) (hxs ▸ hy))
  refine ⟨⟨⟨hpass, hrec.trans hd.recurse, fun p => (hops p).trans (hd.opers p), ?_, ?_,
    fun b hm => hd.reach b (hback b hm)⟩, (List.nodup_cons.mp hd.nodup).2, ?_, ?_⟩, hmx, hmono⟩
  · rcases hother S hxS with h | ⟨-, -, h⟩
    · rw [h]; exact hd.split
    · exact hd.split.trans h
  · intro b hbS hm
    have hxb : x ≠ b := fun h => hm (h ▸ hmx)
    rcases hother b hxb with h | ⟨hb | hb, -, -⟩
    · rw [h]; exact hd.fresh b hbS fun h' => hm (hmono b h')
    · exact absurd hb hbS
    · exact absurd (hmono b (hch b hb)) hm
  · intro b hb
    have hxb : x ≠ b := fun h => hxA (h ▸ hb)
    obtain ⟨hnsb, ob, hb0, hbs⟩ := hd.active b (List.mem_cons_of_mem _ hb)
    refine ⟨hnsb, ob, hb0, ?_⟩
    rcases hother b hxb with h | ⟨-, hsp, -⟩
    · rw [h, hbs]
    · exact absurd (hd.pass.isSplit_start hsp) hnsb
  · intro b hb hm
    by_cases hxb : x = b
    · subst hxb
      refine ⟨.inl ?_, fun c hc => hmono c (hch c (hxs ▸ hc))⟩
      rw [hx, h0]; simp [splitEffect, hv, ht, hdrop]
    · obtain ⟨hset, hcl⟩ := hd.done b (by simp [hb, Ne.symm hxb]) (hback b hm)
      refine ⟨?_, fun c hc => hmono c (hcl c hc)⟩
      rcases hother b hxb with h | ⟨-, hsp, h⟩
      · rwa [h]
      · exact hset.recount (hd.pass.isSplit_start hsp) h

end Dfs

/-! ## The walk -/

/-- `add_splits` on an object the walk reaches, with more fuel than there are objects not
    on the walk's stack: it answers `true`, keeps the invariant, marks the object and keeps
    every mark. -/
theorem addSplits_dfs (hS : s₀.IsSplit S) (hSin : ∀ b, S ∉ s₀.splitChildren b) (hroot : root ≠ S) :
    ∀ (n : Nat) (A : List Addr) (s : PMState) (x : Addr), Dfs s₀ S root A s →
      s₀.objs.length < A.length + n → (∃ o, s.objs.get x = some o) → s₀.SplitReach root x →
      ∃ s', addSplits n s x S = (true, s') ∧ Dfs s₀ S root A s' ∧ s'.Marked s₀.recurse x ∧
        ∀ z, s.Marked s₀.recurse z → s'.Marked s₀.recurse z
  | 0, _, _, _, hd, hn, _, _ => absurd hn (by have := hd.length_le; omega)
  | n + 1, A, s, x, hd, hn, ⟨o, hc⟩, hr => by
    have hxS : x ≠ S := by
      rintro rfl
      rcases hr.eq_or_mem with h | ⟨b, hb⟩
      · exact hroot h
      · exact hSin b hb
    have ih : ∀ s y, Dfs s₀ S root (x :: A) s → y ∈ s₀.splitChildren x →
        ∃ s', addSplits n s y S = (true, s') ∧ Dfs s₀ S root (x :: A) s' ∧ s'.Marked s₀.recurse y ∧
          ∀ z, s.Marked s₀.recurse z → s'.Marked s₀.recurse z := fun s y hd' hy =>
      addSplits_dfs hS hSin hroot n (x :: A) s y hd' (by simp only [List.length_cons]; omega)
        (hd'.live_of_child (List.mem_cons_self _ _) hy) (hr.trans (.step hy (.refl y)))
    simp only [addSplits, hc, hd.recurse]
    by_cases hu : o.recurse = s₀.recurse
    · rw [if_pos hu]
      exact ⟨s, rfl, hd, fun o' h => by rw [hc] at h; cases h; exact hu, fun _ h => h⟩
    rw [if_neg hu]
    have h0 : s₀.objs.get x = some o := (hd.fresh x hxS fun h => hu (h o hc)).symm.trans hc
    have hmark := marked_mark s s₀.recurse x
    cases hv : o.val with
    | iter t items =>
      have hns : ¬ s₀.IsSplit x := by
        cases t <;> simp [IsSplit, typeOf, h0, PyObj.type, hv, PyVal.type, IterType.type]
      have hch : s₀.splitChildren x = items := by rw [splitChildren_of_get h0, hv]; rfl
      obtain ⟨s₂, h₂, hd₂, hM₂, hk₂⟩ := splitIterRecures_all (Dfs s₀ S root (x :: A))
        (Marked s₀.recurse) ih items _ (fun y hy => hch ▸ hy) (hd.enter hxS hr hc hu hns)
      simp only [h₂]
      by_cases ht : t = .tuple
      · rw [if_pos ht]
        exact ⟨s₂, rfl, hd₂.finish (hch ▸ hM₂) fun o' h => by
          rw [h0] at h; cases h; simp [splitEffect, hv, ht], hk₂ x hmark, fun z hz => hk₂ z (hz.mark x)⟩
      · rw [if_neg ht]
        obtain ⟨hd₃, -, hk₃⟩ := hd₂.finishList hS (hSin x) (hch ▸ hM₂) h0 hv ht
        exact ⟨_, rfl, hd₃, hk₃ x (hk₂ x hmark), fun z hz => hk₃ z (hk₂ z (hz.mark x))⟩
    | what ops =>
      have hns : ¬ s₀.IsSplit x := by simp [IsSplit, typeOf, h0, PyObj.type, hv, PyVal.type]
      have hch : s₀.splitChildren x = ops.flatMap s₀.operArgs := by
        rw [splitChildren_of_get h0, hv]; rfl
      obtain ⟨s₂, h₂, hd₂, hM₂, hk₂⟩ := splitWhatRecures_all (Dfs s₀ S root (x :: A))
        (Marked s₀.recurse) ih (fun s hd' p => by rw [hd'.opers p]; rfl) ops _
        (fun p hp y hy => hch ▸ List.mem_flatMap.mpr ⟨p, hp, hy⟩) (hd.enter hxS hr hc hu hns)
      refine ⟨s₂, h₂, hd₂.finish (fun c hc' => ?_) fun o' h => by
        rw [h0] at h; cases h; simp [splitEffect, hv], hk₂ x hmark, fun z hz => hk₂ z (hz.mark x)⟩
      rw [hch, List.mem_flatMap] at hc'
      obtain ⟨p, hp, hy⟩ := hc'
      exact hM₂ p hp c hy
    | _ => exact ⟨_, rfl, hd.leaf hxS hr hc hu (by rw [hv]; rfl) (by rw [hv]; rfl), hmark,
      fun z hz => hz.mark x⟩

/-! ## What the pass leaves -/

/-- What the split pass of a `REDUCE` leaves, from the state `s` it starts on to `s'`:
    `pop` is the new oper, `a` its argument, `S = s.objs.length` the split it allocates,
    and reachability is `SplitReach` in `s`. -/
structure SplitsAdded (s : PMState) (pop : OAddr) (a : Addr) (s' : PMState) : Prop where
  /-- every reached object other than a split has the payload `splitEffect` gives and the
      new mark, and keeps its count -/
  reached : ∀ b o, s.SplitReach a b → s.objs.get b = some o → ¬ s.IsSplit b →
    s'.objs.get b = some { o with val := s.splitEffect s.objs.length o.val, recurse := s.recurse + 1 }
  /-- a reached split keeps its payload, or is freed -/
  reachedSplit : ∀ b, s.SplitReach a b → s.IsSplit b →
    s'.objs.get b = none ∨ (s'.objs.get b).map PyObj.val = (s.objs.get b).map PyObj.val
  /-- every other object is as it was -/
  unreached : ∀ b, ¬ s.SplitReach a b → b ≠ s.objs.length → s'.objs.get b = s.objs.get b
  /-- once a list, set, frozenset or dict is reached, the split is live and names `pop` -/
  split : ∀ b t xs, s.SplitReach a b → (s.objs.get b).map PyObj.val = some (.iter t xs) →
    t ≠ .tuple → (s'.objs.get s.objs.length).map PyObj.val = some (.split (some pop))

/-- `split_reduce` on the oper `pop`, whose last argument is `a`, from a state satisfying
    the invariant: the pass answers `true`, and leaves what `SplitsAdded` says. -/
theorem splitReduce_adds {s : PMState} (hi : Inv s []) {pop : OAddr} {q : PyOper}
    (hq : s.opers.get pop = some q) {a : Addr} (ha : q.stack.getLast? = some a) :
    (splitReduce s pop).1 = true ∧ SplitsAdded s pop a (splitReduce s pop).2 := by
  obtain ⟨s₀, hi₀, heq, -, hrec, hops, hobj, hS0⟩ := splitReduce_start hi hq ha
  set S := s.objs.length
  have hS : s₀.IsSplit S := by simp [IsSplit, typeOf, hS0, PyObj.fresh, PyObj.type, PyVal.type]
  have hlt : ∀ b o, s.objs.get b = some o → b ≠ S := fun b o ho h => by
    have := Store.lt_of_get ho; omega
  /- the pass sees the graph of `s` -/
  have hch : s₀.splitChildren = s.splitChildren := funext fun b => by
    by_cases hb : b = S
    · rw [hb, splitChildren_of_get hS0, splitChildren, show s.objs.get S = none from Store.get_length _]
      rfl
    · rw [splitChildren, hobj b hb, show s₀.operArgs = s.operArgs from
        funext fun p => by simp only [operArgs, hops p]]; rfl
  have hreach : ∀ b, s₀.SplitReach a b ↔ s.SplitReach a b := fun b => by rw [SplitReach, hch]
  have hSin : ∀ b, S ∉ s₀.splitChildren b := fun b h => by
    rw [hch] at h
    obtain ⟨o, ho⟩ := hi.live_of_splitChild h
    exact hlt S o ho rfl
  obtain ⟨oa, hoa⟩ := hi.live_of_arg hq (List.mem_of_getLast?_eq_some ha)
  have hnew : ∀ b o, s₀.objs.get b = some o → o.recurse < s₀.recurse := fun b o ho => by
    by_cases hb : b = S
    · rw [hb, hS0] at ho; cases ho; show 0 < s₀.recurse; omega
    · rw [hobj b hb] at ho; have := hi.recurseLe b o ho; omega
  obtain ⟨s₄, h₄, hd₄, hm₄, -⟩ := addSplits_dfs hS hSin (hlt a oa hoa) (s₀.objs.length + 1) [] s₀ a
    (Dfs.init hi₀ hnew) (by simp) ⟨oa, by rw [hobj a (hlt a oa hoa), hoa]⟩ (.refl a)
  rw [heq, h₄]
  refine ⟨rfl, ?_⟩
  /- releasing the pass's handle on `S` -/
  obtain ⟨oS, hoS⟩ := hd₄.pass.inv.live_of_handle (List.mem_singleton_self S)
  obtain ⟨o₁, h₁, hvS, -⟩ := hd₄.split.eq_of_some hoS
  rw [hS0] at h₁; cases h₁
  obtain ⟨hkeep, hSend, -⟩ := release_split_frame hoS hvS (hd₄.pass.inv.reduce_pos hoS hvS)
  have hinv : Inv (s₄.release (some S)) [] :=
    ((show Inv s₄ ([] ++ [S]) from hd₄.pass.inv).releaseSplit (hd₄.pass.isSplit hS)).1
  have hmarked : ∀ b, s.SplitReach a b → s₄.Marked s₀.recurse b := fun b hb =>
    hd₄.marked_of_reach hm₄ ((hreach b).mpr hb)
  have reached : ∀ b o, s.SplitReach a b → s.objs.get b = some o → ¬ s.IsSplit b →
      (s₄.release (some S)).objs.get b = some { o with val := s.splitEffect S o.val, recurse := s.recurse + 1 } := by
    intro b o hb ho hns
    have hbS := hlt b o ho
    have h0 : s₀.objs.get b = some o := (hobj b hbS).trans ho
    rw [hkeep b (Ne.symm hbS)]
    rcases (hd₄.done b (List.not_mem_nil _) (hmarked b hb)).1 with h | ⟨hsp, -⟩
    · rw [h, h0, ← hrec, splitEffect_congr S fun y hy => ?_]; rfl
      obtain ⟨oy, hoy⟩ := hi.live_of_ptr ho hy
      simp only [typeOf, hobj y (hlt y oy hoy)]
    · exact absurd (by rwa [IsSplit, typeOf, h0, ← ho] at hsp) hns
  refine ⟨reached, fun b hb hsp => ?_, fun b hb hbS => ?_, fun b t xs hb hv ht => ?_⟩
  · obtain ⟨o, r, ho, -⟩ := exists_split_of_isSplit s hsp
    have hbS := hlt b o ho
    have hsp₀ : s₀.IsSplit b := by rwa [IsSplit, typeOf, hobj b hbS]
    rw [hkeep b (Ne.symm hbS), ← hobj b hbS]
    exact ((hd₄.done b (List.not_mem_nil _) (hmarked b hb)).1).val hsp₀
  · rw [hkeep b (Ne.symm hbS), ← hobj b hbS]
    by_cases hm : s₄.Marked s₀.recurse b
    · cases h0 : s₀.objs.get b with
      | none =>
        rcases (hd₄.done b (List.not_mem_nil _) hm).1 with h | ⟨hsp, -⟩
        · rw [h, h0]; rfl
        · simp [IsSplit, typeOf, h0] at hsp
      | some o => exact absurd ((hreach b).mp (hd₄.reach b hm (by simp [h0]))) hb
    · exact hd₄.fresh b hbS hm
  · obtain ⟨o, ho, hv⟩ := Option.map_eq_some'.mp hv
    have hns : ¬ s.IsSplit b := by
      simp [IsSplit, typeOf, ho, PyObj.type, hv, PyVal.type]; cases t <;> simp [IterType.type]
    have hb' := reached b o hb ho hns
    rw [hv] at hb'
    simp only [splitEffect, if_neg ht] at hb'
    obtain ⟨o', ho'⟩ := hinv.live_of_ptr hb'
      (show S ∈ PyVal.objPtrs (.iter t (s.dropTrailingSplit xs ++ [S])) by simp)
    rcases hSend with h | h
    · rw [h] at ho'; cases ho'
    · rw [h]; simp [hvS, PyObj.fresh]

/-- `REDUCE` from a reachable state with at least two objects on the stack records its
    oper `pop` on the object below the top, with the top `a` as its one argument, and runs
    the split pass from there: the pass terminates, answering `true`, whatever the graph
    of `a`, and leaves what `SplitsAdded` says. -/
theorem reduce_adds_splits (c : RCore) (s : PMState) (op : RAnalOp) (hs : Reachable c s)
    (hlen : 2 ≤ s.stack.length) :
    ∃ s₁ a, s.stack.getLast? = some a ∧ (s₁.opers.get s.opers.length).map PyOper.stack = some [a] ∧
      execOp c s op .reduce = splitReduce s₁ s.opers.length ∧ (execOp c s op .reduce).1 = true ∧
      SplitsAdded s₁ s.opers.length a (execOp c s op .reduce).2 := by
  obtain ⟨s₁, q, hi₁, hq, hql, ⟨rest, hst⟩, heq⟩ :=
    pyWhatAddop_record_of_lt hs.inv (show operFits .reduce 1 = true from rfl) (by omega)
  obtain ⟨a, ha⟩ := List.length_eq_one.mp hql
  have hexec : execOp c s op .reduce = splitReduce s₁ s.opers.length := by
    rw [show execOp c s op .reduce = pyWhatAddop s 1 .reduce from rfl, heq, if_pos rfl]
  rw [hexec]
  exact ⟨s₁, a, by rw [hst, ha]; simp, by simp [hq, ha], rfl,
    splitReduce_adds hi₁ hq (by simp [ha])⟩

/-- `EMPTY_LIST, EMPTY_LIST`: an object to record on and an argument for `REDUCE`. -/
def twoListsOps : List (PyOp × RAnalOp) := [(.emptyList, .imm 0), (.emptyList, .imm 0)]

theorem reduce_adds_splits_on_empty_list :
    ∃ s, execRun .plain (initState 0) twoListsOps = some s ∧ 2 ≤ s.stack.length ∧
      ∃ s₁ a, s.stack.getLast? = some a ∧ (s₁.opers.get s.opers.length).map PyOper.stack = some [a] ∧
        execOp .plain s (.imm 0) .reduce = splitReduce s₁ s.opers.length ∧
        (execOp .plain s (.imm 0) .reduce).1 = true ∧
        SplitsAdded s₁ s.opers.length a (execOp .plain s (.imm 0) .reduce).2 :=
  ⟨_, rfl, by decide, reduce_adds_splits .plain _ (.imm 0)
    (Reachable.of_plainRun (show execRun .plain (initState 0) twoListsOps = _ from rfl)) (by decide)⟩

end PickleDec
