import PickleDec.RenderOk

/-!
# The flags the renderer hands back

`dump_iter`, `dump_iter_dict`, `prepend_obj` and `dump_what` change `first` and `ret`
for the calls they make, and `prepend_obj` sets the current buffer aside on
`outstack`; each puts them back before it returns. `Printer.flags` is that part of
`PrintInfo`, and `KeepsFlags` says a call returns only with the flags it was given.
There is one lemma per function of `dump.c`, and `dump_obj` follows by induction on
the fuel, through the whole mutual recursion and every early return.
-/

set_option autoImplicit false

namespace PickleDec

open PMState Printer

/-! ## `first`, `ret` and the depth of `outstack` -/

namespace Printer

/-- What every call of `dump_obj` hands back as it found it. -/
def flags (p : Printer) : Bool × Bool × Nat := (p.nfo.first, p.nfo.ret, p.nfo.outstack.length)

@[simp] theorem flags_append (p : Printer) (t : String) : (p.append t).flags = p.flags := rfl

@[simp] theorem flags_drain (p : Printer) : p.drain.flags = p.flags := by
  unfold drain; split <;> (try split) <;> rfl

@[simp] theorem flags_drainFree (p : Printer) : p.drainFree.flags = p.flags := flags_drain p

@[simp] theorem flags_newline (p : Printer) : p.newline.flags = p.flags := by
  unfold newline; split <;> rfl

@[simp] theorem flags_objVarname (p : Printer) (a : Addr) : (p.objVarname a).1.flags = p.flags := by
  unfold objVarname; split
  · rfl
  · split
    · rfl
    · split_ifs <;> rfl

@[simp] theorem flags_varPrePrint (p : Printer) (a : Addr) : (p.varPrePrint a).1.flags = p.flags := by
  have hv := flags_objVarname p a
  unfold varPrePrint
  by_cases hr : p.nfo.ret = true
  · rw [if_pos hr]; dsimp only; split <;> rfl
  rw [if_neg hr]
  by_cases hf : p.nfo.first = true
  · rw [if_pos hf]
    split
    · dsimp only; split_ifs <;> rfl
    · rcases h : p.objVarname a with ⟨p₁, _ | v⟩ <;> rw [h] at hv <;> exact hv
  · rw [if_neg hf]; split <;> rfl

end Printer

/-- `f` returns only with the flags it was called with. -/
def KeepsFlags (f : Printer → Except Halt (Printer × Bool)) : Prop :=
  ∀ p p' b, f p = .ok (p', b) → p'.flags = p.flags

/-! ## One lemma per function of `dump.c` -/

section Flags

variable (opers : Store PyOper)

theorem dumpScalar_flags (text : String) (p : Printer) (a : Addr) :
    (dumpScalar text p a).1.flags = p.flags := by
  unfold dumpScalar
  rcases h : p.varPrePrint a with ⟨p₁, k⟩
  have := flags_varPrePrint p a
  rw [h] at this
  split <;> simp_all

theorem dumpIterLoop_flags {dump : Dumper} (h : ∀ x, KeepsFlags (dump · x)) :
    ∀ items, KeepsFlags (dumpIterLoop dump · items)
  | [], p, p', b, hp => by cases hp; rfl
  | x :: xs, p, p', b, hp => by
    dsimp only [dumpIterLoop] at hp
    split at hp
    · next _ p₁ hx =>
      split_ifs at hp
      · cases hp; exact h x p _ _ hx
      · exact (dumpIterLoop_flags h xs _ p' b hp).trans (h x p p₁ _ hx)
    · exact h x p p' b hp

theorem dumpIterDictLoop_flags {dump : Dumper} (h : ∀ x, KeepsFlags (dump · x)) :
    ∀ items onkey, KeepsFlags (dumpIterDictLoop dump · onkey items)
  | [], _, p, p', b, hp => by cases hp; rfl
  | x :: xs, onkey, p, p', b, hp => by
    dsimp only [dumpIterDictLoop] at hp
    split at hp
    · next _ p₁ hx =>
      refine (dumpIterDictLoop_flags h xs _ _ p' b hp).trans ?_
      rw [← h x p p₁ _ hx]
      split_ifs <;> rfl
    · exact h x p p' b hp

theorem dumpIterWith_flags {loop : Printer → Except Halt (Printer × Bool)} (h : KeepsFlags loop) :
    KeepsFlags (dumpIterWith loop) := fun p p' b hp => by
  dsimp only [dumpIterWith] at hp
  split at hp
  · next _ p₁ b₁ hl =>
    cases hp
    have := congrArg (fun f : Bool × Bool × Nat => f.2.2) (h _ p₁ _ hl)
    simp only [flags, withNfo_nfo] at this ⊢
    rw [this]
  · cases hp

theorem dumpBracketed_flags (openB closeB : String) {inner : Printer → Except Halt (Printer × Bool)}
    (h : KeepsFlags inner) (a : Addr) : KeepsFlags (dumpBracketed openB closeB inner · a) :=
  fun p p' b hp => by
    have h₁ := flags_varPrePrint p a
    dsimp only [dumpBracketed] at hp
    split at hp
    · next p₁ hv =>
      rw [hv] at h₁
      split at hp
      · next _ p₂ b₂ hi => cases hp; simpa using (h _ p₂ _ hi).trans h₁
      · cases hp
    · next p₁ k _ hv => rw [hv] at h₁; cases hp; exact h₁

/-- `prepend_obj` puts `first`, `ret` and the buffer it set aside back. -/
theorem prependObj_flags {dump : Dumper} (a : Addr) (h : KeepsFlags (dump · a)) :
    KeepsFlags (prependObj dump · a) := fun p p' b hp => by
  dsimp only [prependObj] at hp
  split_ifs at hp with hf
  · cases hp; rfl
  split at hp
  · next q bq hd =>
    have hq := congrArg (fun f : Bool × Bool × Nat => f.2.2) (h _ q bq hd)
    simp only [flags, withNfo_nfo, List.length_append, List.length_singleton] at hq
    have hfin : ((q.drainFree).withNfo fun n =>
        { n with out := (n.outstack.getLast?).getD none, outstack := n.outstack.dropLast,
                 first := false, ret := p.nfo.ret }).flags = p.flags := by
      have := congrArg (fun f : Bool × Bool × Nat => f.2.2) (flags_drainFree q)
      simp only [flags, withNfo_nfo, List.length_dropLast] at this ⊢
      rw [this, hq]; simp_all
    split_ifs at hp
    · split at hp <;> cases hp
      · rw [flags_append, hfin]
      · exact hfin
    · cases hp; exact hfin
  · cases hp

/-- The calls `dump_oper_*` make: `dump` between two texts. -/
theorem dumpBetween_flags {dump : Dumper} {x : Addr} (h : KeepsFlags (dump · x)) (t u : String) :
    KeepsFlags fun p => match dump (p.append t) x with
      | Except.ok (p, true) => Except.ok (p.append u, true)
      | r => r := fun p p' b hp => by
  dsimp only at hp
  split at hp
  · next _ p₁ hx => cases hp; exact (h _ p₁ _ hx).trans (flags_append p t)
  · exact (h _ p' b hp).trans (flags_append p t)

theorem dumpOper_flags {dump : Dumper} (h : ∀ x, KeepsFlags (dump · x)) (vn : String) (q : OAddr) :
    KeepsFlags (dumpOper opers dump vn · q) := fun p p' b hp => by
  dsimp only [dumpOper] at hp
  split at hp
  · cases hp
  split at hp
  · dsimp only [dumpOperInit] at hp; split at hp
    · cases hp
    · exact dumpBetween_flags (h _) _ _ p p' b hp
  · dsimp only [dumpOperReduce] at hp; split at hp
    · cases hp
    · split_ifs at hp
      · cases hp; rfl
      · exact dumpBetween_flags (h _) _ _ p p' b hp
  · dsimp only [dumpOperNewobj] at hp; split at hp
    · cases hp
    · split_ifs at hp
      · cases hp; rfl
      · exact dumpBetween_flags (h _) _ _ p p' b hp
  · cases hp; rfl

theorem dumpOperLoop_flags {dump : Dumper} (h : ∀ x, KeepsFlags (dump · x)) (vn : String) :
    ∀ ops, KeepsFlags (dumpOperLoop opers dump vn · ops)
  | [], p, p', b, hp => by cases hp; rfl
  | q :: qs, p, p', b, hp => by
    dsimp only [dumpOperLoop] at hp
    split at hp
    · next _ p₁ hq =>
      exact (dumpOperLoop_flags h vn qs _ p' b hp).trans (dumpOper_flags opers h vn q p p₁ _ hq)
    · exact dumpOper_flags opers h vn q p p' b hp

theorem dumpWhat_flags {dump : Dumper} (h : ∀ x, KeepsFlags (dump · x)) (ops : List OAddr)
    (a : Addr) : KeepsFlags (dumpWhat opers dump ops · a) := fun p p' b hp => by
  dsimp only [dumpWhat] at hp
  split_ifs at hp with hf
  · split at hp
    · cases hp; rfl
    · exact prependObj_flags a (h a) p p' b hp
  simp only [Bool.not_eq_true', Bool.not_eq_false] at hf
  split at hp
  · cases hp; rfl
  have h₀ := flags_objVarname p a
  split at hp
  · next p₁ hv => cases hp; rwa [hv] at h₀
  · next p₁ vn hv =>
    rw [hv] at h₀
    simp only [flags, Prod.mk.injEq] at h₀
    split at hp
    · next p₃ hl =>
      have h₃ := congrArg (fun f : Bool × Bool × Nat => f.2.2) (dumpOperLoop_flags opers h vn ops _ p₃ _ hl)
      simp only [flags, withNfo_nfo] at h₃
      split_ifs at hp <;> cases hp <;>
        simp only [flags, flags_append, withNfo_nfo, Prod.mk.injEq] <;>
        exact ⟨hf.symm, h₀.2.1, h₃.trans h₀.2.2⟩
    · next p₃ hl =>
      have h₃ := congrArg (fun f : Bool × Bool × Nat => f.2.2) (dumpOperLoop_flags opers h vn ops _ p₃ _ hl)
      simp only [flags, withNfo_nfo] at h₃
      cases hp; simp only [flags, withNfo_nfo, Prod.mk.injEq]; exact ⟨hf.symm, h₀.2.1, h₃.trans h₀.2.2⟩
    · cases hp

theorem dumpObj_flags (cstr : PyObj → String) : ∀ n a, KeepsFlags (dumpObj opers cstr n · a)
  | 0, _, _, _, _, hp => by cases hp
  | n + 1, a, p, p', b, hp => by
    have ih : ∀ x, KeepsFlags (dumpObj opers cstr n · x) := dumpObj_flags cstr n
    have hscalar : ∀ text, (Except.ok (dumpScalar text p a) : Except Halt _) = .ok (p', b) →
        p'.flags = p.flags := fun text h => by
      have h' : (dumpScalar text p a).1 = p' := congrArg Prod.fst (Except.ok.inj h)
      rw [← h']; exact dumpScalar_flags text p a
    dsimp only [dumpObj] at hp
    split at hp
    · cases hp
    split at hp
    · exact hscalar _ hp
    · exact hscalar _ hp
    · exact hscalar _ hp
    · exact hscalar _ hp
    · exact hscalar _ hp
    · exact dumpBracketed_flags _ _ (dumpIterWith_flags (dumpIterLoop_flags ih _)) a p p' b hp
    · exact dumpBracketed_flags _ _ (dumpIterWith_flags (dumpIterLoop_flags ih _)) a p p' b hp
    · exact dumpBracketed_flags _ _ (dumpIterWith_flags (dumpIterDictLoop_flags ih _ true)) a p p' b hp
    · exact hscalar _ hp
    · exact dumpWhat_flags opers ih _ a p p' b hp
    · cases hp; rfl

end Flags

/-- Every call of `dump_obj` that returns, answering `true` or `false`, leaves `first`,
    `ret` and the depth of `outstack` as it found them: for every object graph, every
    `PrintInfo` and every fuel. -/
theorem dumpObj_returns_with_flags (opers : Store PyOper) (cstr : PyObj → String) (n : Nat)
    (p : Printer) (a : Addr) {p' : Printer} {b : Bool} (h : dumpObj opers cstr n p a = .ok (p', b)) :
    p'.nfo.first = p.nfo.first ∧ p'.nfo.ret = p.nfo.ret ∧
      p'.nfo.outstack.length = p.nfo.outstack.length := by
  simpa [flags] using dumpObj_flags opers cstr n a p p' b h

/-- `MARK, NONE, EMPTY_TUPLE, NEWOBJ, LIST`: a list holding an unnamed `PY_WHAT`, which
    `dump_iter` meets inline and `prepend_obj` dumps as a statement of its own. -/
def prependOps : List (PyOp × RAnalOp) :=
  [(.mark, .imm 0), (.none, .imm 0), (.emptyTuple, .imm 0), (.newobj, .imm 0), (.list, .imm 0)]

theorem dumpObj_returns_with_flags_through_prepend :
    ∃ s p' b, execRun .plain (initState 0) prependOps = some s ∧
      dumpObj s.opers (fun _ => "") 4 ⟨printInfoInit false, "", s.objs⟩ 3 = .ok (p', b) ∧
      p'.nfo.first = false ∧ p'.nfo.ret = false ∧ p'.nfo.outstack.length = 0 := by
  obtain ⟨s, hs⟩ : ∃ s, execRun .plain (initState 0) prependOps = some s := ⟨_, rfl⟩
  obtain ⟨p', b, hd⟩ : ∃ p' b, dumpObj s.opers (fun _ => "") 4 ⟨printInfoInit false, "", s.objs⟩ 3 =
      .ok (p', b) :=
    ⟨_, _, execRun_read hs (fun s => dumpObj s.opers (fun _ => "") 4 ⟨printInfoInit false, "", s.objs⟩ 3) rfl⟩
  exact ⟨s, p', b, hs, hd, dumpObj_returns_with_flags _ _ 4 _ 3 hd⟩

end PickleDec

/-! ## `return ` on the last statement

`dump_stack` sets `ret` for the top of the stack. A `PY_WHAT` there that already has a
name, because it was dumped lower on the stack (`DUP`), takes `dump_what`'s early exit,
which writes `return ` and then `return <name>`. -/

namespace PickleDec

open PMState Printer

/-- The loop of `dump_stack` over `l₁ ++ l₂`: `l₁`, then `l₂` from where it stopped. -/
theorem dumpStackLoop_append (opers : Store PyOper) (cstr : PyObj → String) (fuel : Nat)
    (n : String) (l₂ : List Addr) : ∀ {l₁ : List Addr} {p p₁ : Printer} {len : Nat},
      dumpStackLoop opers cstr fuel n p len l₁ = .ok (p₁, true) →
      dumpStackLoop opers cstr fuel n p len (l₁ ++ l₂) =
        dumpStackLoop opers cstr fuel n p₁ (len - l₁.length) l₂
  | [], p, p₁, len, h => by cases h; rfl
  | a :: l₁, p, p₁, len, h => by
    dsimp only [dumpStackLoop] at h
    rw [List.cons_append]
    dsimp only [dumpStackLoop]
    split at h
    · rw [dumpStackLoop_append opers cstr fuel n l₂ h, List.length_cons, Nat.sub_sub, Nat.add_comm 1]
    · next hne => exact absurd h (hne p₁)

section Named

variable {s : PMState} (cstr : PyObj → String)

/-- A `PY_WHAT` below the stack, dumped as a statement (`first`), gets a name. -/
theorem dumpObj_names_what (hi : Inv s []) {r : Addr} (hr : r ∈ s.stack)
    (hren : ∀ a, Reach s r a → s.renderable a = true) (m : Addr → Nat)
    (hm : ∀ a b, Reach s r a → b ∈ s.children a → m b < m a) {a : Addr} (ha : Reach s r a)
    {o : PyObj} {ops : List OAddr} (ho : s.objs.get a = some o) (hv : o.val = .what ops) (n : Nat)
    (hn : 2 * m a + 2 ≤ n) (p : Printer) (hp : p.Fits (s.objs.map (Option.map PyObj.val)))
    (hf : p.nfo.first = true) :
    ∃ p', dumpObj s.opers cstr n p a = .ok (p', true) ∧ Le p p' ∧ (p'.varnameOf a).isSome := by
  obtain ⟨k, rfl⟩ : ∃ k, n = k + 1 := ⟨n - 1, by omega⟩
  have hval : Store.get (s.objs.map (Option.map PyObj.val)) a = some o.val := by
    rw [Store.get_map, ho]; rfl
  obtain ⟨o', ho', hv'⟩ := hp.get hval
  simp only [dumpObj, ho', hv', hv]
  refine dumpWhat_first_ok s.opers hval (fun vn => dumpOperLoop_ok s.opers vn fun q hq => ?_) hp hf
  obtain ⟨pop, x, hq, hop, hx, hxa⟩ := hi.what_oper_arg ho hv (hren a ha) hq
  exact dumpOper_ok s.opers vn hq hop hx (dumpObj_ok cstr hi hr hren m hm x
    (ha.trans (.step hxa (.refl x))) k (by have := hm a x ha hxa; omega))

end Named

/-- Dumping a stack in which `w` is dumped as a statement leaves `w` named. -/
theorem dumpStackLoop_names {vals : Store PyVal} (opers : Store PyOper) (cstr : PyObj → String)
    (fuel : Nat) (n : String) {w : Addr}
    (hw : ∀ p : Printer, p.Fits vals → p.nfo.first = true →
      ∃ p', dumpObj opers cstr fuel p w = .ok (p', true) ∧ Le p p' ∧ (p'.varnameOf w).isSome) :
    ∀ {stack : List Addr}, (∀ r ∈ stack, GetsThrough vals (dumpObj opers cstr fuel · r)) → w ∈ stack →
      ∀ len (p : Printer), p.Fits vals → ∃ p', dumpStackLoop opers cstr fuel n p len stack = .ok (p', true) ∧
        Le p p' ∧ (p'.varnameOf w).isSome
  | [], _, hmem, _, _, _ => absurd hmem (List.not_mem_nil _)
  | r :: rest, h, hmem, len, p, hp => by
    have hq : Le p ((p.append ("## " ++ n ++ "[" ++ toString (len - 1) ++ "] " ++
        (if len - 1 = 0 then "TOP" else "") ++ "\n")).drain.withNfo fun i =>
          { i with first := true, ret := if len - 1 = 0 then true else i.ret }) := .of_objs (by simp)
    have hrest := fun y hy => h y (List.mem_cons_of_mem r hy)
    by_cases hrw : r = w
    · subst hrw
      obtain ⟨p₁, h₁, hle₁, hname⟩ := hw _ (hq.fits hp) rfl
      have hd : Le p₁ p₁.drain := .of_objs (by simp)
      obtain ⟨p₂, h₂, hle₂⟩ := dumpStackLoop_ok opers cstr fuel n hrest (len - 1) p₁.drain
        ((hq.trans (hle₁.trans hd)).fits hp)
      simp only [dumpStackLoop, h₁]
      exact ⟨p₂, h₂, hq.trans (hle₁.trans (hd.trans hle₂)), (hd.trans hle₂).names _ hname⟩
    · obtain ⟨p₁, h₁, hle₁⟩ := h r (List.mem_cons_self r rest) _ (hq.fits hp)
      have hd : Le p₁ p₁.drain := .of_objs (by simp)
      obtain ⟨p₂, h₂, hle₂, hname⟩ := dumpStackLoop_names opers cstr fuel n hw hrest
        ((List.mem_cons.mp hmem).resolve_left (Ne.symm hrw)) (len - 1) p₁.drain
        ((hq.trans (hle₁.trans hd)).fits hp)
      simp only [dumpStackLoop, h₁]
      exact ⟨p₂, h₂, hq.trans (hle₁.trans (hd.trans hle₂)), hname⟩

/-- Draining a buffer that `t` has just made non-empty. -/
theorem Printer.drain_append (p : Printer) (t : String) (ht : 0 < t.length) :
    (p.append t).drain = ⟨{ p.nfo with out := some "" }, p.cons ++ (p.nfo.out.getD "" ++ t), p.objs⟩ := by
  have : (p.nfo.out.getD "" ++ t).length ≠ 0 := by rw [String.length_append]; omega
  unfold drain
  simp only [append, withNfo, if_neg this]

/-- Draining an empty buffer writes nothing. -/
theorem Printer.drain_of_empty {p : Printer} (h : p.nfo.out = some "") : p.drain = p := by
  simp [drain, h]

/-- `dump_what` on a named `PY_WHAT` as the last statement (`first` and `ret`): `return `,
    then `return <name>`. -/
theorem dumpObj_named_what_ret (opers : Store PyOper) (cstr : PyObj → String) (k : Nat)
    {q : Printer} {w : Addr} {o : PyObj} {ops : List OAddr} {name : String}
    (ho : q.objs.get w = some o) (hv : o.val = .what ops) (hn : q.varnameOf w = some name)
    (hf : q.nfo.first = true) (hr : q.nfo.ret = true) :
    dumpObj opers cstr (k + 1) q w =
      .ok ((q.append "return ").append ("return " ++ name ++ "\n"), true) := by
  simp [dumpObj, ho, hv, dumpWhat, hf, hr, hn]

/-- In a reachable state whose stack ends with a `PY_WHAT` that also lies lower on the
    stack, and that the renderer gets through, the last statement is
    `return return <name>`: the `PY_WHAT` was named when it was dumped lower down. -/
theorem reachable_named_top_returned_twice {c : RCore} {s : PMState} (hs : Reachable c s)
    (hacyc : StackAcyclic s) (hren : ∀ r ∈ s.stack, ∀ a, Reach s r a → s.renderable a = true)
    {st : List Addr} {w : Addr} (hstack : s.stack = st ++ [w]) (hw : s.typeOf w = some .what)
    (hmem : w ∈ st) (cstr : PyObj → String) (v : Bool) :
    ∃ p name pre, dumpMachine cstr (2 * s.objs.length + 2) s (printInfoInit v) = .ok (p, true) ∧
      p.cons = pre ++ "return " ++ "return " ++ name ++ "\n" := by
  have hi := hs.inv
  obtain ⟨m, hmN, hm⟩ := hi.exists_rank hacyc
  have hwr : w ∈ s.stack := by rw [hstack]; exact List.mem_append_right _ (List.mem_singleton_self w)
  obtain ⟨o, ops, ho, hv⟩ := exists_what_of_typeOf s hw
  have hnames := dumpObj_names_what cstr hi hwr (hren w hwr) m (hm w hwr) (.refl w) ho hv
    (2 * s.objs.length + 2) (by have := hmN w; omega)
  have hall := hi.stack_getsThrough hacyc hren cstr
  let p₀ : Printer := ⟨{ printInfoInit v with verbose := true, outstack := [] }, "", s.objs⟩
  let P := p₀.append ("## Stack " ++ "VM" ++ " start, len " ++ toString (st.length + 1) ++ "\n")
  obtain ⟨p₁, h₁, hle₁, hname⟩ := dumpStackLoop_names s.opers cstr _ "VM" hnames
    (fun r hr => hall r (by rw [hstack]; exact List.mem_append_left _ hr)) hmem (st.length + 1) P rfl
  obtain ⟨name, hn⟩ := Option.isSome_iff_exists.mp hname
  let hdr := "## " ++ "VM" ++ "[" ++ toString (st.length + 1 - st.length - 1) ++ "] " ++
    (if st.length + 1 - st.length - 1 = 0 then "TOP" else "") ++ "\n"
  let p₂ := ((p₁.append hdr).drain).withNfo fun i =>
    { i with first := true, ret := if st.length + 1 - st.length - 1 = 0 then true else i.ret }
  obtain ⟨o', ho', hv'⟩ := (hle₁.fits (show P.Fits (s.objs.map (Option.map PyObj.val)) from rfl)).get
    (show Store.get (s.objs.map (Option.map PyObj.val)) w = some o.val by rw [Store.get_map, ho]; rfl)
  have hlen : 0 < hdr.length := by
    have : "\n".length = 1 := rfl
    simp only [hdr, String.length_append]; omega
  have h₂ := dumpObj_named_what_ret s.opers cstr (2 * s.objs.length + 1) (q := p₂)
    (by simpa [p₂, Printer.drain_append _ _ hlen] using ho') (hv'.trans hv)
    (by simpa [p₂, varnameOf, Printer.drain_append _ _ hlen] using hn) (by simp [p₂]) (by simp [p₂])
  have hstk : dumpStack s.opers cstr (2 * s.objs.length + 2) p₀ s.stack "VM" =
      dumpStackLoop s.opers cstr (2 * s.objs.length + 2) "VM" P (st.length + 1) (st ++ [w]) := by
    simp [dumpStack, hstack, P]
  refine ⟨(((p₂.append "return ").append ("return " ++ name ++ "\n")).drain).drainFree, name, p₂.cons,
    ?_, ?_⟩
  · show (match dumpStack s.opers cstr _ p₀ s.stack "VM" with
      | Except.ok (p, b) => (Except.ok (p.drainFree, b) : Except Halt (Printer × Bool))
      | Except.error e => Except.error e) = _
    rw [hstk, dumpStackLoop_append _ _ _ _ [w] h₁]
    simp only [dumpStackLoop]
    rw [show 2 * s.objs.length + 2 = 2 * s.objs.length + 1 + 1 from rfl, h₂]
  · have hout : p₂.nfo.out = some "" := by simp [p₂, Printer.drain_append _ _ hlen]
    rw [Printer.drainFree, Printer.drain_append _ _
      (by rw [String.length_append]; have : "\n".length = 1 := rfl; omega), withNfo_cons,
      Printer.drain_of_empty rfl]
    simp only [append_cons, append, withNfo, hout, Option.getD_some, String.empty_append,
      String.append_assoc]

/-- `NONE, EMPTY_TUPLE, NEWOBJ, DUP`: the same `PY_WHAT` twice on the stack. -/
def dupWhatOps : List (PyOp × RAnalOp) :=
  [(.none, .imm 0), (.emptyTuple, .imm 0), (.newobj, .imm 0), (.dup, .imm 0)]

theorem dup_what_returned_twice :
    ∃ s, execRun .plain (initState 0) dupWhatOps = some s ∧ StackAcyclic s ∧
      (∀ r ∈ s.stack, ∀ a, Reach s r a → s.renderable a = true) ∧ s.stack = [2] ++ [2] ∧
      s.typeOf 2 = some .what ∧
      (∀ (cstr : PyObj → String) (v : Bool), ∃ p name pre,
        dumpMachine cstr (2 * s.objs.length + 2) s (printInfoInit v) = .ok (p, true) ∧
        p.cons = pre ++ "return " ++ "return " ++ name ++ "\n") ∧
      ∀ cstr fuel v, ∃ p, dumpMachine cstr (fuel + 2) s (printInfoInit v) = .ok (p, true) ∧
        p.cons = "## Stack VM start, len 2\n## VM[1] \nvar_ffffffffffffffff = None\n" ++
          "var_ffffffffffffffff = var_ffffffffffffffff.__new__(var_ffffffffffffffff, *())\n" ++
          "## VM[0] TOP\nreturn return var_ffffffffffffffff\n" := by
  obtain ⟨s, hrun, hout⟩ : ∃ s, execRun .plain (initState 0) dupWhatOps = some s ∧
      ∀ cstr fuel v, ∃ p, dumpMachine cstr (fuel + 2) s (printInfoInit v) = .ok (p, true) ∧
        p.cons = "## Stack VM start, len 2\n## VM[1] \nvar_ffffffffffffffff = None\n" ++
          "var_ffffffffffffffff = var_ffffffffffffffff.__new__(var_ffffffffffffffff, *())\n" ++
          "## VM[0] TOP\nreturn return var_ffffffffffffffff\n" :=
    ⟨_, rfl, fun _ _ _ => ⟨_, rfl, rfl⟩⟩
  have hstack : s.stack = [2] ++ [2] := execRun_read hrun PMState.stack (by decide)
  obtain ⟨hacyc, hren⟩ := whatOverLeaves
    (fun r hr => by rw [hstack] at hr; simpa [or_self] using hr)
    (execRun_read hrun (fun s => s.children 2) (by decide))
    (execRun_read hrun (fun s => s.children 0) (by decide))
    (execRun_read hrun (fun s => s.children 1) (by decide))
    ⟨execRun_read hrun (fun s => s.renderable 2) (by decide),
      execRun_read hrun (fun s => s.renderable 0) (by decide),
      execRun_read hrun (fun s => s.renderable 1) (by decide)⟩
  have hw : s.typeOf 2 = some .what := execRun_read hrun (fun s => s.typeOf 2) (by decide)
  exact ⟨s, hrun, hacyc, hren, hstack, hw, reachable_named_top_returned_twice
    (Reachable.of_plainRun hrun) hacyc hren hstack hw (List.mem_singleton_self 2), hout⟩

end PickleDec
