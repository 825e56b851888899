import PickleDec.Release

/-!
# The `REDUCE` split pass keeps the invariant

`split_reduce` allocates a split, links it to the new `reduce` oper and starts a new
generation. `add_splits` then marks every object it reaches and makes the split the
last element of each list, set, frozenset and dict, after `itter_add_split` has
released a trailing split it replaces. Through the pass `split_reduce` holds the split
(`Inv s [S]`) and the tags stay, except of splits that are freed (`TypesKept`); at the
end the handle is released. This holds whatever the pass answers, also when it runs
out of fuel halfway.
-/

set_option autoImplicit false

namespace PickleDec

open PMState

/-! ## Elements ending in a split -/

namespace PMState

variable {s : PMState}

theorem SplitsApart.dropLast {xs : List Addr} {l : Addr} (h : s.SplitsApart (xs ++ [l])) :
    s.SplitsApart xs ∧ (s.IsSplit l → ∀ y ∈ xs.getLast?, ¬ s.IsSplit y) := by
  obtain ⟨h1, -, h3⟩ := List.chain'_append.mp h
  exact ⟨h1, fun hl y hy hys => h3 y hy l (by simp) ⟨hys, hl⟩⟩

theorem SplitsApart.snoc {xs : List Addr} (h : s.SplitsApart xs)
    (hl : ∀ y ∈ xs.getLast?, ¬ s.IsSplit y) (S : Addr) : s.SplitsApart (xs ++ [S]) :=
  List.chain'_append.mpr ⟨h, List.chain'_singleton S, fun y hy _ _ hs => hl y hy hs.1⟩

theorem nonSplits_split {l : Addr} (hl : s.IsSplit l) : s.nonSplits [l] = 0 := by
  simp [nonSplits, hl]

theorem DictPaired.dropLast {xs : List Addr} {l : Addr} (h : s.DictPaired (xs ++ [l]))
    (hl : s.IsSplit l) : s.DictPaired xs := by
  refine ⟨by simpa [nonSplits_append, nonSplits_split hl] using h.1, fun i hi hs => ?_⟩
  have := h.2 i (by simp; omega) (by rwa [List.getElem_append_left hi])
  rwa [List.take_append_of_le_length hi.le] at this

theorem DictPaired.snoc {xs : List Addr} (h : s.DictPaired xs) {S : Addr} (hS : s.IsSplit S) :
    s.DictPaired (xs ++ [S]) := by
  refine ⟨by simpa [nonSplits_append, nonSplits_split hS] using h.1, fun i hi hs => ?_⟩
  rcases Nat.lt_or_ge i xs.length with hil | hil
  · rw [List.take_append_of_le_length hil.le]
    exact h.2 i hil (by rwa [List.getElem_append_left hil] at hs)
  · obtain rfl : i = xs.length := by simp at hi; omega
    simpa using h.1

end PMState

/-! ## Marks and generations -/

namespace Inv

variable {s : PMState} {h : List Addr}

/-- Marking an object with the machine's generation. -/
theorem mark (hi : Inv s h) (a : Addr) :
    Inv (s.modObj a fun o => { o with recurse := s.recurse }) h := by
  refine hi.keepVal (fun o => { o with recurse := s.recurse }) (fun _ => rfl) (fun _ _ => le_rfl) a
    (fun x => ?_) hi.rooted
  have : (s.objs.modify a fun o => { o with recurse := s.recurse }).held PyObj.refcnt x =
      s.objs.held PyObj.refcnt x := Store.held_modify_of _ _ _ _ _ fun _ => rfl
  rw [this]; exact hi.objCount x

/-- A new generation. -/
theorem newGen (hi : Inv s h) : Inv { s with recurse := s.recurse + 1 } h :=
  { hi with recurseLe := fun a o ho => Nat.le_succ_of_le (hi.recurseLe a o ho) }

end Inv

/-! ## The pass -/

/-- What holds along the pass that `split_reduce` started at `s₀` with the split `S`. -/
structure PassOk (S : Addr) (s₀ s : PMState) : Prop where
  inv : Inv s [S]
  types : TypesKept s₀ s

namespace PassOk

variable {S : Addr} {s₀ s : PMState}

theorem isSplit (hp : PassOk S s₀ s) (hS : s₀.IsSplit S) : s.IsSplit S := by
  obtain ⟨o, ho⟩ := hp.inv.live_of_handle (List.mem_singleton_self S)
  rcases hp.types S with h | ⟨-, hn⟩
  · rwa [IsSplit, h]
  · rw [ho] at hn; cases hn

/-- The iterable at `obj` keeps its tag, hence its kind of payload, along the pass. -/
theorem iter_of_iter (hp : PassOk S s₀ s) {obj : Addr} {o : PyObj} {t : IterType} {xs : List Addr}
    (hc : s.objs.get obj = some o) (hv : o.val = .iter t xs) {s' : PMState}
    (hp' : PassOk S s₀ s') : ∃ o', s'.objs.get obj = some o' ∧ o'.val = .iter t (s'.itemsOf obj) := by
  have hty : s.typeOf obj = some t.type := by simp [typeOf, hc, PyObj.type, hv, PyVal.type]
  have hns : ¬ s₀.IsSplit obj := fun hs => by
    rcases hp.types obj with h | ⟨-, hn⟩
    · rw [IsSplit, ← h, hty] at hs; cases t <;> cases hs
    · rw [hc] at hn; cases hn
  refine exists_iter_of_typeOf s' ?_
  rw [hp'.types.typeOf_eq hns, ← hp.types.typeOf_eq hns, hty]

theorem mark (hp : PassOk S s₀ s) (a : Addr) :
    PassOk S s₀ (s.modObj a fun o => { o with recurse := s.recurse }) :=
  ⟨hp.inv.mark a, hp.types.trans
    (.of_typeOf (@typeOf_modObj s (fun o => { o with recurse := s.recurse }) (fun _ => rfl) a))⟩

/-- The split becomes the last element of the list, set, frozenset or dict at `obj`,
    which does not end in a split. -/
theorem appendSplit (hp : PassOk S s₀ s) (hS : s₀.IsSplit S) {obj : Addr} {o : PyObj}
    {t : IterType} {ys : List Addr} (hc : s.objs.get obj = some o) (hv : o.val = .iter t ys)
    (ht : t ≠ .tuple) (hlast : ∀ y ∈ ys.getLast?, ¬ s.IsSplit y) :
    PassOk S s₀ ((s.setItems obj (s.itemsOf obj ++ [S])).bumpObj S 1) := by
  have hS' := hp.isSplit hS
  obtain ⟨oS, hoS⟩ := hp.inv.live_of_handle (List.mem_singleton_self S)
  have hne : S ≠ obj := by
    rintro rfl
    obtain ⟨o', r, ho', hv'⟩ := exists_split_of_isSplit s hS'
    rw [hc] at ho'; cases ho'; rw [hv] at hv'; cases hv'
  have hcomm : (s.setItems obj (ys ++ [S])).bumpObj S 1 = (s.bumpObj S 1).setItems obj (ys ++ [S]) := by
    simp only [setItems, bumpObj, modObj, Store.modify_comm _ (Ne.symm hne)]
  have hsp : ∀ x, (s.bumpObj S 1).IsSplit x ↔ s.IsSplit x := isSplit_bumpObj s S 1
  have hc' : (s.bumpObj S 1).objs.get obj = some o := by simp [bumpObj, hne, hc]
  have i1 := hp.inv.share hoS
  have i2 := i1.reshape hc' (·.withItems (ys ++ [S]))
    (show o.withItems (ys ++ [S]) = { o with val := .iter t (ys ++ [S]) } by simp [PyObj.withItems, hv])
    (by simp [hv, PyVal.type]) (by simp [hv]) (by simp [hv]) [] (fun a => by simp [hv])
    (fun y hy => by simp at hy; simp [hy]) (fun y hy _ => by simp [hv] at hy; simp [hy])
    (fun y hy hys => absurd ((hsp y).mpr (by simp at hy; exact hy ▸ hS')) hys)
    (fun a ha => by cases t <;> simp [PyVal.fixedPtrs] at ha ht)
    (((hv ▸ hp.inv.apart obj o hc).snoc hlast S).congr fun x _ => hsp x)
    (fun xs hxs => by
      cases hxs
      exact ((hp.inv.paired obj o ys hc hv).snoc hS').congr fun x _ => hsp x)
  rw [itemsOf_of_iter s hc hv, hcomm]
  exact ⟨by simpa using i2, hp.types.trans (.of_typeOf fun a => by simp)⟩

/-- `itter_add_split` on a list, set, frozenset or dict. -/
theorem itterAddSplit (hp : PassOk S s₀ s) (hS : s₀.IsSplit S) {obj : Addr} {o : PyObj}
    {t : IterType} {xs : List Addr} (hc : s.objs.get obj = some o) (hv : o.val = .iter t xs)
    (ht : t ≠ .tuple) : PassOk S s₀ (PickleDec.itterAddSplit s obj S).2 := by
  have hap := hv ▸ hp.inv.apart obj o hc
  unfold PickleDec.itterAddSplit
  rw [itemsOf_of_iter s hc hv]
  split
  · next rest last hpop =>
    rw [popLast_eq_some] at hpop
    subst hpop
    split_ifs with hl
    · have i1 : Inv (s.setItems obj rest) ([S] ++ [last]) :=
        (show Inv s ([S] ++ []) by simpa using hp.inv).reshape hc (·.withItems rest)
          (show o.withItems rest = { o with val := .iter t rest } by simp [PyObj.withItems, hv])
          (by simp [hv, PyVal.type]) (by simp [hv]) (by simp [hv]) [last]
          (fun a => by simp [hv]) (fun y hy => by simp at hy)
          (fun y hy hys => by
            simp only [hv, PyVal.objPtrs_iter, List.mem_append, List.mem_singleton] at hy
            rcases hy with hy | rfl
            · simpa using hy
            · exact absurd hl hys)
          (fun y hy => by simp at hy) (fun a ha => by cases t <;> simp [PyVal.fixedPtrs] at ha ht)
          (by simpa using hap.dropLast.1)
          (fun ys hys => by
            cases hys
            exact (hp.inv.paired obj o _ hc hv).dropLast hl)
      have hl' : (s.setItems obj rest).IsSplit last := (isSplit_setItems s obj rest last).mpr hl
      obtain ⟨i2, hkeep⟩ := i1.releaseSplit hl'
      have hty := hkeep.typesKept hl'
      have hp2 : PassOk S s₀ ((s.setItems obj rest).release (some last)) :=
        ⟨i2, hp.types.trans ((TypesKept.of_typeOf (typeOf_setItems s obj rest)).trans hty)⟩
      have hobj : obj ≠ last := by
        rintro rfl; simp [IsSplit, typeOf, hc, PyObj.type, hv, PyVal.type] at hl; cases t <;> cases hl
      obtain ⟨o', hc', hv'⟩ : ∃ o', ((s.setItems obj rest).release (some last)).objs.get obj = some o' ∧
          o'.val = .iter t rest := by
        rcases hkeep obj with h | ⟨h, -⟩
        · rw [get_setItems_self s hc hv] at h
          obtain ⟨o', ho', hv'⟩ := Option.map_eq_some'.mp h
          exact ⟨o', ho', hv'⟩
        · exact absurd h hobj
      refine hp2.appendSplit hS hc' hv' ht fun y hy hys => ?_
      rcases hty y with h | ⟨h, -⟩
      · exact hap.dropLast.2 hl y hy (by rwa [IsSplit, ← typeOf_setItems s obj rest, ← h])
      · exact hap.dropLast.2 hl y hy ((isSplit_setItems s obj rest y).mp h)
    · exact hp.appendSplit hS hc hv ht fun y hy hys => by
        simp at hy; subst hy; exact hl hys
  · next hpop =>
    rw [popLast_eq_none] at hpop
    subst hpop
    exact hp.appendSplit hS hc hv ht fun y hy => by simp at hy

end PassOk

/-! ## The loops -/

section Loops

variable {P : PMState → Prop} {add : PMState → Addr → Bool × PMState}

/-- `split_iter_recures` keeps what every call of `add` keeps. -/
theorem splitIterRecures_preserves (hadd : ∀ s x, P s → P (add s x).2) :
    ∀ (s : PMState) (xs : List Addr), P s → P (splitIterRecures add s xs).2
  | _, [], h => h
  | s, x :: xs, h => by
    have hx := hadd s x h
    unfold splitIterRecures
    rcases hax : add s x with ⟨_ | _, s'⟩ <;> rw [hax] at hx
    · exact hx
    · exact splitIterRecures_preserves hadd s' xs hx

/-- `split_what_recures` keeps what every call of `add` keeps. -/
theorem splitWhatRecures_preserves (hadd : ∀ s x, P s → P (add s x).2) :
    ∀ (s : PMState) (ps : List OAddr), P s → P (splitWhatRecures add s ps).2
  | _, [], h => h
  | s, p :: ps, h => by
    have hx := splitIterRecures_preserves hadd s (((s.opers.get p).map PyOper.stack).getD []) h
    unfold splitWhatRecures
    rcases hax : splitIterRecures add s (((s.opers.get p).map PyOper.stack).getD []) with
      ⟨_ | _, s'⟩ <;> rw [hax] at hx
    · exact hx
    · exact splitWhatRecures_preserves hadd s' ps hx

end Loops

/-- `add_splits`, with any fuel, from any object. -/
theorem PassOk.addSplits {S : Addr} {s₀ : PMState} (hS : s₀.IsSplit S) :
    ∀ (n : Nat) (s : PMState) (obj : Addr), PassOk S s₀ s → PassOk S s₀ (addSplits n s obj S).2
  | 0, _, _, hp => hp
  | n + 1, s, obj, hp => by
    have ih : ∀ s x, PassOk S s₀ s → PassOk S s₀ (PickleDec.addSplits n s x S).2 :=
      fun s x hp => PassOk.addSplits hS n s x hp
    unfold PickleDec.addSplits
    cases hc : s.objs.get obj with
    | none => exact hp
    | some o =>
      simp only
      split_ifs
      · exact hp
      have hp1 := hp.mark obj
      have hc1 : (s.modObj obj fun o => { o with recurse := s.recurse }).objs.get obj =
          some { o with recurse := s.recurse } := by simp [hc]
      cases hv : o.val with
      | iter t items =>
        have hp2 := splitIterRecures_preserves ih _ items hp1
        rcases hr : splitIterRecures (fun s x => PickleDec.addSplits n s x S)
          (s.modObj obj fun o => { o with recurse := s.recurse }) items with ⟨_ | _, s₂⟩
        · rw [hr] at hp2; simp only [hr]; exact hp2
        · rw [hr] at hp2
          simp only [hr]
          split_ifs with ht
          · exact hp2
          · obtain ⟨o₂, hc₂, hv₂⟩ := hp1.iter_of_iter hc1 hv hp2
            exact hp2.itterAddSplit hS hc₂ hv₂ ht
      | what ops => exact splitWhatRecures_preserves ih _ ops hp1
      | _ => exact hp1

/-- The whole pass from a state holding the split, then the handle released. -/
theorem addSplits_release_inv {S : Addr} {s : PMState} (hi : Inv s [S]) (hS : s.IsSplit S)
    (n : Nat) (obj : Addr) : Inv ((addSplits n s obj S).2.release (some S)) [] :=
  let hp := PassOk.addSplits hS n s obj ⟨hi, .refl s⟩
  (hp.inv.releaseSplit (hp.isSplit hS)).1

/-- `split_reduce` on the oper `pop` whose last argument is `a`: the pass runs from a state
    `s₀` that holds the new split `S = s.objs.length`, linked to `pop`, under a new
    generation, and the pass's handle on `S` is released at the end. -/
theorem splitReduce_start {s : PMState} (hi : Inv s []) {pop : OAddr} {q : PyOper}
    (hq : s.opers.get pop = some q) {a : Addr} (ha : q.stack.getLast? = some a) :
    ∃ s₀, Inv s₀ [s.objs.length] ∧
      splitReduce s pop = ((addSplits (s₀.objs.length + 1) s₀ a s.objs.length).1,
        (addSplits (s₀.objs.length + 1) s₀ a s.objs.length).2.release (some s.objs.length)) ∧
      s₀.objs.length = s.objs.length + 1 ∧ s₀.recurse = s.recurse + 1 ∧
      (∀ p, (s₀.opers.get p).map PyOper.stack = (s.opers.get p).map PyOper.stack) ∧
      (∀ b, b ≠ s.objs.length → s₀.objs.get b = s.objs.get b) ∧
      s₀.objs.get s.objs.length = some (PyObj.fresh (.split (some pop)) s.offset) := by
  set S := s.objs.length
  have i1 : Inv (s.newObj (.split none)).1 [S] := hi.newLeaf (.split none) rfl rfl (by decide)
  have hS1 : (s.newObj (.split none)).1.objs.get S = some (PyObj.fresh (.split none) s.offset) := by
    simp [get_newObj, S]
  refine ⟨_, (i1.setReduce hS1 rfl (some pop) pop (by simpa using hq) 1 fun p' => by
    by_cases hp : pop = p' <;> simp [hp, List.count_singleton, Ne.symm]).newGen, ?_, by simp [S],
    rfl, fun p => ?_, fun b hb => ?_, by simp [hS1, PyObj.fresh]⟩
  · simp only [splitReduce, newObj_snd, newObj_opers, hq, Option.some_bind, ha]; rfl
  · simp only [newObj_opers, Store.get_modify]; split_ifs <;> cases s.opers.get p <;> rfl
  · simp [get_newObj, Ne.symm hb, hb]

/-- `split_reduce` for an oper with arguments, from a state satisfying the invariant. -/
theorem splitReduce_inv {s : PMState} (hi : Inv s []) {pop : OAddr} {q : PyOper}
    (hq : s.opers.get pop = some q) (hne : q.stack ≠ []) : Inv (splitReduce s pop).2 [] := by
  obtain ⟨s₀, hi₀, heq, -, -, -, -, hS⟩ := splitReduce_start hi hq (List.getLast?_eq_getLast _ hne)
  rw [heq]
  exact addSplits_release_inv hi₀ (by simp [IsSplit, typeOf, hS, PyObj.fresh, PyObj.type, PyVal.type]) _ _

end PickleDec
