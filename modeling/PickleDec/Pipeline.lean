import PickleDec.RunFrees
import PickleDec.Dump

/-!
# `pickle_dec` from start to end: the dump writes only names

`pickle_dec` runs `init_machine_state`, then `run_pvm`, then `dump_machine` on the state
`run_pvm` left, and last `empty_state`. The renderer writes to the objects it dumps:
`obj_varname` caches a name on each object it names. Nothing else of an object changes,
whatever the dump prints and however far it gets (`dumpMachine_names`). There is one
lemma per function of `dump.c`; the loops go by induction on their list and `dump_obj`
by induction on its fuel.

So the state `empty_state` tears down is the state `run_pvm` left with names added. No
count and no pointer depends on a name, and every free of the teardown finds its cell
live (`pickleDec_dump_teardown_safe`).
-/

set_option autoImplicit false

namespace PickleDec

open PMState Printer

/-- An object with its cached name dropped. -/
def PyObj.unnamed (o : PyObj) : PyObj := { o with varname := none }

/-- The objects `objs'` are `objs` with names given or changed, and nothing else. -/
def NamesOnly (objs objs' : Store PyObj) : Prop :=
  objs'.map (Option.map PyObj.unnamed) = objs.map (Option.map PyObj.unnamed)

namespace NamesOnly

variable {objs objs' objs'' : Store PyObj}

theorem refl (objs : Store PyObj) : NamesOnly objs objs := rfl

theorem trans (h₁ : NamesOnly objs objs') (h₂ : NamesOnly objs' objs'') : NamesOnly objs objs'' :=
  Eq.trans h₂ h₁

theorem get (h : NamesOnly objs objs') (a : Addr) :
    (objs'.get a).map PyObj.unnamed = (objs.get a).map PyObj.unnamed := by
  rw [← Store.get_map, ← Store.get_map, h]

/-- A count read off the objects through anything but the name. -/
theorem countIn {g : PyObj → List Nat} (hg : ∀ o, g o.unnamed = g o) (h : NamesOnly objs objs')
    (x : Nat) : Store.countIn g objs' x = Store.countIn g objs x := by
  have key : ∀ t : Store PyObj,
      Store.countIn g t x = ((t.map (Option.map PyObj.unnamed)).map (Store.cnt g x)).sum := fun t => by
    simp only [Store.countIn, List.map_map]
    congr 1
    exact List.map_congr_left fun c _ => by cases c <;> simp [Store.cnt, hg]
  rw [key, key, h]

theorem held (h : NamesOnly objs objs') (a : Nat) :
    objs'.held PyObj.refcnt a = objs.held PyObj.refcnt a := by
  have := h.get a
  unfold Store.held
  cases h₁ : objs'.get a <;> cases h₂ : objs.get a <;> simp_all [PyObj.unnamed]

end NamesOnly

/-- Names added to the objects leave the counts and the pointers as they were. -/
theorem Covers.rename {s : PMState} {h : List Addr} (hc : Covers s h) {objs' : Store PyObj}
    (hn : NamesOnly s.objs objs') : Covers { s with objs := objs' } h where
  objCount a := by
    have := hc.objCount a
    simp only [objRefCount] at this ⊢
    rw [hn.countIn (g := fun o : PyObj => o.val.objPtrs) (fun _ => rfl), hn.held]; exact this
  operCount p := by
    have := hc.operCount p
    simp only [operRefCount] at this ⊢
    rw [hn.countIn (g := fun o : PyObj => o.val.operPtrs) (fun _ => rfl)]; exact this

/-! ## One lemma per function of `dump.c` -/

namespace Printer

theorem newline_objs (p : Printer) : p.newline.objs = p.objs := by
  unfold newline; split <;> rfl

/-- `obj_varname` writes a name and nothing else. -/
theorem objVarname_names (p : Printer) (a : Addr) : NamesOnly p.objs (p.objVarname a).1.objs := by
  unfold objVarname
  cases ho : p.objs.get a with
  | none => exact .refl _
  | some o =>
    dsimp only
    cases hv : o.varname with
    | some v => exact .refl _
    | none =>
      have hval : Store.get (p.objs.map (Option.map PyObj.unnamed)) a = some o.unnamed := by
        rw [Store.get_map, ho]; rfl
      dsimp only
      split_ifs <;> exact (Store.map_set _ _ _ _).trans (Store.set_self hval)

theorem varPrePrint_names (p : Printer) (a : Addr) : NamesOnly p.objs (p.varPrePrint a).1.objs := by
  have h₁ := objVarname_names p a
  unfold varPrePrint
  split_ifs <;> (try dsimp only) <;> split <;>
    first | exact .refl _ | (split <;> rename_i heq <;> rw [heq] at h₁ <;> exact h₁)

theorem dumpScalar_names (text : String) (p : Printer) (a : Addr) :
    NamesOnly p.objs (dumpScalar text p a).1.objs := by
  have h₀ := varPrePrint_names p a
  unfold dumpScalar
  split <;> rename_i heq <;> rw [heq] at h₀
  · rw [newline_objs]; exact h₀
  · exact h₀

end Printer

section Render

variable (opers : Store PyOper) (cstr : PyObj → String)

/-- `f`, whenever it returns, has changed no object but its name. -/
def Framed (f : Printer → Except Halt (Printer × Bool)) : Prop :=
  ∀ {p r}, f p = .ok r → NamesOnly p.objs r.1.objs

variable {opers} {dump : Dumper}

theorem dumpIterLoop_framed (hd : ∀ x, Framed (dump · x)) :
    ∀ items, Framed (dumpIterLoop dump · items)
  | [], _, _, h => by cases h; exact .refl _
  | x :: xs, _, _, h => by
    simp only [dumpIterLoop] at h
    split at h
    · rename_i h₁
      have h₂ := hd x h₁
      split_ifs at h
      · cases h; exact h₂
      · have h₃ := dumpIterLoop_framed hd xs h
        exact h₂.trans h₃
    · exact hd x h

theorem dumpIterDictLoop_framed (hd : ∀ x, Framed (dump · x)) :
    ∀ items onkey, Framed (dumpIterDictLoop dump · onkey items)
  | [], _, _, _, h => by cases h; exact .refl _
  | x :: xs, onkey, _, _, h => by
    simp only [dumpIterDictLoop] at h
    split at h
    · rename_i h₁
      have h₂ := hd x h₁
      have h₃ := dumpIterDictLoop_framed hd xs _ h
      split_ifs at h₃ <;> exact h₂.trans h₃
    · exact hd x h

theorem dumpIterWith_framed {loop : Printer → Except Halt (Printer × Bool)} (h : Framed loop) :
    Framed (dumpIterWith loop) := fun hr => by
  simp only [dumpIterWith] at hr
  split at hr
  · rename_i h₁
    have := h h₁
    cases hr; exact this
  · cases hr

theorem dumpBracketed_framed (openB closeB : String) {inner : Printer → Except Halt (Printer × Bool)}
    (h : Framed inner) (a : Addr) : Framed (dumpBracketed openB closeB inner · a) := fun {p _} hr => by
  have h₀ := varPrePrint_names p a
  simp only [dumpBracketed] at hr
  split at hr <;> rename_i heq <;> rw [heq] at h₀
  · split at hr
    · rename_i h₁
      have h₂ := h h₁
      cases hr; rw [newline_objs]; exact h₀.trans h₂
    · cases hr
  · cases hr; exact h₀

theorem prependObj_framed {a : Addr} (hd : Framed (dump · a)) : Framed (prependObj dump · a) :=
  fun hr => by
  simp only [prependObj] at hr
  split_ifs at hr
  · cases hr; exact .refl _
  split at hr
  · rename_i h₁
    have := hd h₁
    split_ifs at hr
    · split at hr <;> cases hr <;> simpa [drainFree] using this
    · cases hr; simpa [drainFree] using this
  · cases hr

/-- The argument of an oper, dumped between two texts. -/
theorem dumpOperArg_framed (hd : ∀ x, Framed (dump · x)) (t u : String) (x : Addr) :
    Framed fun p => match dump (p.append t) x with
      | .ok (p, true) => .ok (p.append u, true)
      | r => r := fun hr => by
  dsimp only at hr
  split at hr
  · rename_i h₁
    have := hd x h₁
    cases hr; exact this
  · have := hd x hr
    exact this

theorem dumpOper_framed (hd : ∀ x, Framed (dump · x)) (vn : String) (q : OAddr) :
    Framed (dumpOper opers dump vn · q) := fun hr => by
  simp only [dumpOper, dumpOperInit, dumpOperReduce, dumpOperNewobj] at hr
  split at hr
  · cases hr
  split at hr
  all_goals first
    | (cases hr; exact .refl _)
    | (split at hr
       · cases hr
       · first
          | exact dumpOperArg_framed hd _ _ _ hr
          | (split_ifs at hr
             · cases hr; exact .refl _
             · exact dumpOperArg_framed hd _ _ _ hr))

theorem dumpOperLoop_framed (hd : ∀ x, Framed (dump · x)) (vn : String) :
    ∀ ops, Framed (dumpOperLoop opers dump vn · ops)
  | [], _, _, h => by cases h; exact .refl _
  | q :: qs, _, _, h => by
    simp only [dumpOperLoop] at h
    split at h
    · rename_i h₁
      have h₂ := dumpOper_framed hd vn q h₁
      have h₃ := dumpOperLoop_framed hd vn qs h
      exact h₂.trans h₃
    · exact dumpOper_framed hd vn q h

theorem dumpWhat_framed (hd : ∀ x, Framed (dump · x)) (ops : List OAddr) (a : Addr) :
    Framed (dumpWhat opers dump ops · a) := fun {p _} hr => by
  simp only [dumpWhat] at hr
  split_ifs at hr
  · split at hr
    · cases hr; exact .refl _
    · exact prependObj_framed (hd a) hr
  split at hr
  · cases hr; exact .refl _
  have h₁ := objVarname_names p a
  split at hr <;> rename_i heq <;> rw [heq] at h₁
  · cases hr; exact h₁
  split at hr
  · rename_i h₂
    have h₃ := dumpOperLoop_framed hd _ ops h₂
    split_ifs at hr <;> cases hr <;> simpa using h₁.trans h₃
  · rename_i h₂
    have h₃ := dumpOperLoop_framed hd _ ops h₂
    cases hr; simpa using h₁.trans h₃
  · cases hr

variable (opers)

/-- `dump_obj`, at any fuel, on any object. -/
theorem dumpObj_framed : ∀ n a, Framed (dumpObj opers cstr n · a)
  | 0, _, _, _, h => by cases h
  | n + 1, a, p, _, h => by
    have ih : ∀ x, Framed (dumpObj opers cstr n · x) := dumpObj_framed n
    simp only [dumpObj] at h
    split at h
    · cases h
    split at h
    all_goals first
      | (cases h; exact dumpScalar_names _ p a)
      | (cases h; exact .refl _)
      | exact dumpBracketed_framed _ _ (dumpIterWith_framed (dumpIterLoop_framed ih _)) a h
      | exact dumpBracketed_framed _ _ (dumpIterWith_framed (dumpIterDictLoop_framed ih _ _)) a h
      | exact dumpWhat_framed ih _ a h

theorem dumpStackLoop_framed (fuel : Nat) (n : String) :
    ∀ stack len, Framed (dumpStackLoop opers cstr fuel n · len stack)
  | [], _, _, _, h => by cases h; exact .refl _
  | a :: rest, _, _, _, h => by
    simp only [dumpStackLoop] at h
    split at h
    · rename_i h₁
      have h₂ := dumpObj_framed opers cstr fuel a h₁
      have h₃ := dumpStackLoop_framed fuel n rest _ h
      simp only [drain_objs, withNfo_objs, append_objs] at h₂ h₃
      exact h₂.trans h₃
    · simpa using dumpObj_framed opers cstr fuel a h

end Render

/-- `dump_machine`, whenever it returns, has changed no object of the machine but its
    name. -/
theorem dumpMachine_names {cstr : PyObj → String} {fuel : Nat} {s : PMState} {nfo : PrintInfo}
    {p : Printer} {b : Bool} (h : dumpMachine cstr fuel s nfo = .ok (p, b)) : NamesOnly s.objs p.objs := by
  simp only [dumpMachine] at h
  split_ifs at h
  · split at h
    · rename_i p₁ b₁ h₁
      cases h
      simp only [dumpStack] at h₁
      have := dumpStackLoop_framed s.opers cstr fuel "VM" _ _ h₁
      split_ifs at this <;> simpa [drainFree] using this
    · cases h
  · cases h; simpa [drainFree] using NamesOnly.refl s.objs

/-- `pickle_dec`'s sequence: `init_machine_state`, `run_pvm` with `break_on_stop`,
    `recurse++` and `dump_machine`, then `empty_state`. When the dump returns, every object
    is as `run_pvm` left it but for its name, and no free of the teardown that follows
    reads, writes or frees a freed cell, whatever `run_pvm` answered. -/
theorem pickleDec_dump_teardown_safe (c : RCore) (s₀ s : PMState) (ok : Bool)
    (ops : List (PyOp × RAnalOp)) (cstr : PyObj → String) (fuel : Nat) (nfo : PrintInfo) (p : Printer)
    (b : Bool) (hinit : initMachineState c = some s₀)
    (hrun : runPvm c { s₀ with breakOnStop := true } ops = (ok, s))
    (hdump : dumpMachine cstr fuel s nfo = .ok (p, b)) :
    (∀ a, (p.objs.get a).map PyObj.unnamed = (s.objs.get a).map PyObj.unnamed) ∧
      emptyStateChecked { s with objs := p.objs, recurse := s.recurse + 1 } =
        some (emptyState { s with objs := p.objs, recurse := s.recurse + 1 }) :=
  have hn := dumpMachine_names hdump
  have hc := (runPvm_init_covers hinit hrun).rename hn
  have hc' : Covers { s with objs := p.objs, recurse := s.recurse + 1 } [] := ⟨hc.1, hc.2⟩
  ⟨hn.get, emptyStateChecked_of_backed _ hc'.backed⟩

theorem pickleDec_dump_teardown_safe_memo_overwrite :
    ∃ s p b, runPvm .plain { initState 0 with breakOnStop := true } memoOverwriteOps = (false, s) ∧
      dumpMachine (fun _ => "") 8 s (printInfoInit false) = .ok (p, b) ∧
      emptyStateChecked { s with objs := p.objs, recurse := s.recurse + 1 } =
        some (emptyState { s with objs := p.objs, recurse := s.recurse + 1 }) :=
  ⟨_, _, _, rfl, rfl, (pickleDec_dump_teardown_safe .plain (initState 0) _ false memoOverwriteOps
    (fun _ => "") 8 (printInfoInit false) _ _ rfl rfl rfl).2⟩

end PickleDec
