import PickleDec.Render
import PickleDec.Reached

/-!
# When the renderer gets through

`dump_stack` over the VM stack of a reachable state answers `true` when the graph
below the stack is acyclic, holds no set, frozenset or split (`dump_obj` refuses them:
"Can't handle type"), and every `PY_WHAT` in it records only `FAKE_INIT`, `REDUCE` and
`NEWOBJ` (`dump_oper` refuses the rest: "Can't parse type ... yet").

The dump is followed with a printer order (`Printer.Le`: payloads kept, names only
added) and one lemma per function of `dump.c`; the recursion is bounded by a rank that
drops along every owning reference, which the acyclic graph below the stack has (the
number of objects reachable from a node). A `PY_WHAT` met inline is dumped once more as
a statement of its own (`prepend_obj`), so the fuel is twice the rank.
-/

set_option autoImplicit false

namespace PickleDec

open PMState Printer

/-! ## The printer order -/

namespace Printer

/-- `p'` is `p` later in a dump: every payload as it was, every name given still given. -/
structure Le (p p' : Printer) : Prop where
  vals : p'.objs.map (Option.map PyObj.val) = p.objs.map (Option.map PyObj.val)
  names : ∀ x, (p.varnameOf x).isSome → (p'.varnameOf x).isSome

theorem Le.refl (p : Printer) : Le p p := ⟨rfl, fun _ h => h⟩

theorem Le.trans {p₁ p₂ p₃ : Printer} (h₁ : Le p₁ p₂) (h₂ : Le p₂ p₃) : Le p₁ p₃ :=
  ⟨h₂.vals.trans h₁.vals, fun x h => h₂.names x (h₁.names x h)⟩

/-- The payloads of `p` are `vals`. -/
def Fits (vals : Store PyVal) (p : Printer) : Prop := p.objs.map (Option.map PyObj.val) = vals

theorem Le.fits {vals : Store PyVal} {p p' : Printer} (h : Le p p') (hp : p.Fits vals) : p'.Fits vals :=
  h.vals.trans hp

theorem Le.of_objs {p p' : Printer} (h : p'.objs = p.objs) : Le p p' :=
  ⟨by rw [h], fun x hx => by simpa [varnameOf, h] using hx⟩

theorem le_append (p : Printer) (t : String) : Le p (p.append t) := .of_objs rfl
theorem le_withNfo (p : Printer) (f : PrintInfo → PrintInfo) : Le p (p.withNfo f) := .of_objs rfl
theorem le_newline (p : Printer) : Le p p.newline := .of_objs (by unfold newline; split <;> rfl)
theorem le_drainFree (p : Printer) : Le p p.drainFree := .of_objs (by simp [drainFree])

/-- `obj_varname` on an unnamed live object: it writes a name on it and nowhere else. -/
theorem objVarname_unnamed {p : Printer} {a : Addr} {o : PyObj} (ho : p.objs.get a = some o)
    (hv : o.varname = none) : ∃ v, (p.objVarname a).2 = some v ∧
      (p.objVarname a).1.objs = p.objs.set a { o with varname := some v } := by
  unfold objVarname; rw [ho]; dsimp only; rw [hv]; dsimp only
  split_ifs <;> exact ⟨_, rfl, rfl⟩

theorem objVarname_live {p : Printer} {a : Addr} {o : PyObj} (ho : p.objs.get a = some o) :
    Le p (p.objVarname a).1 ∧ ((p.objVarname a).1.varnameOf a).isSome ∧
      ((p.objVarname a).2).isSome := by
  rcases hv : o.varname with _ | v
  · obtain ⟨v, h2, h1⟩ := objVarname_unnamed ho hv
    have hval : Store.get (p.objs.map (Option.map PyObj.val)) a = some o.val := by
      rw [Store.get_map, ho]; rfl
    refine ⟨⟨?_, fun x hx => ?_⟩, ?_, by simp [h2]⟩
    · rw [h1, Store.map_set]; exact Store.set_self hval
    · simp only [varnameOf, h1, Store.get_set] at hx ⊢; split_ifs <;> simp_all
    · simp [varnameOf, h1, Store.lt_of_get ho]
  · have : p.objVarname a = (p, some v) := by simp [objVarname, ho, hv]
    exact ⟨by rw [this]; exact .refl p, by simp [this, varnameOf, ho, hv], by simp [this]⟩

/-- `var_pre_print` on a live object either prints a name (`1`) or lets the object be
    printed (`0`); it never fails. -/
theorem varPrePrint_live {p : Printer} {a : Addr} {o : PyObj} (ho : p.objs.get a = some o) :
    Le p (p.varPrePrint a).1 ∧ ((p.varPrePrint a).2 = 0 ∨ (p.varPrePrint a).2 = 1) := by
  unfold varPrePrint
  by_cases hr : p.nfo.ret = true
  · rw [if_pos hr]; dsimp only; rw [varnameOf_append]
    cases p.varnameOf a
    · exact ⟨le_append _ _, by simp⟩
    · exact ⟨(le_append _ _).trans (le_append _ _), by simp⟩
  rw [if_neg hr]
  by_cases hf : p.nfo.first = true
  · rw [if_pos hf]
    cases p.varnameOf a with
    | some v => exact ⟨by dsimp only; split_ifs; exacts [le_append _ _, .refl _], by simp⟩
    | none =>
      dsimp only
      obtain ⟨hle, -, hs⟩ := objVarname_live ho
      rcases hov : p.objVarname a with ⟨p', _ | v⟩ <;> rw [hov] at hle hs
      · simp at hs
      · exact ⟨hle.trans (le_append _ _), by simp⟩
  · rw [if_neg hf]
    cases p.varnameOf a
    · exact ⟨.refl _, by simp⟩
    · exact ⟨le_append _ _, by simp⟩

theorem dumpScalar_live (text : String) {p : Printer} {a : Addr} {o : PyObj}
    (ho : p.objs.get a = some o) : Le p (dumpScalar text p a).1 ∧ (dumpScalar text p a).2 = true := by
  obtain ⟨hle, h01⟩ := varPrePrint_live ho
  unfold dumpScalar
  rcases hvp : p.varPrePrint a with ⟨p', k⟩
  rw [hvp] at hle h01
  rcases h01 with rfl | rfl
  · exact ⟨hle.trans ((le_append _ _).trans (le_newline _)), rfl⟩
  · exact ⟨hle, rfl⟩

theorem Fits.get {vals : Store PyVal} {p : Printer} (hp : p.Fits vals) {a : Addr} {v : PyVal}
    (ha : vals.get a = some v) : ∃ o, p.objs.get a = some o ∧ o.val = v := by
  rw [← hp, Store.get_map] at ha; exact Option.map_eq_some'.mp ha

end Printer

/-! ## One lemma per function of `dump.c` -/

section Loops

variable (vals : Store PyVal)

/-- `f` gets through from every printer with the payloads `vals`, answering `true`. -/
def GetsThrough (f : Printer → Except Halt (Printer × Bool)) : Prop :=
  ∀ p : Printer, p.Fits vals → ∃ p', f p = .ok (p', true) ∧ Le p p'

variable {vals} (opers : Store PyOper)

theorem dumpIterLoop_ok {dump : Dumper} :
    ∀ {items : List Addr}, (∀ x ∈ items, GetsThrough vals (dump · x)) →
      GetsThrough vals (dumpIterLoop dump · items)
  | [], _, p, _ => ⟨p, rfl, .refl p⟩
  | x :: xs, h, p, hp => by
    obtain ⟨p₁, h₁, hle₁⟩ := h x (.head _) p hp
    obtain ⟨p₂, h₂, hle₂⟩ := dumpIterLoop_ok (fun y hy => h y (.tail _ hy)) (p₁.append ", ")
      ((hle₁.trans (le_append _ _)).fits hp)
    simp only [dumpIterLoop, h₁]
    split_ifs
    · exact ⟨p₁, rfl, hle₁⟩
    · exact ⟨p₂, h₂, hle₁.trans ((le_append _ _).trans hle₂)⟩

theorem dumpIterDictLoop_ok {dump : Dumper} :
    ∀ {items : List Addr}, (∀ x ∈ items, GetsThrough vals (dump · x)) →
      ∀ onkey, GetsThrough vals (dumpIterDictLoop dump · onkey items)
  | [], _, _, p, _ => ⟨p, rfl, .refl p⟩
  | x :: xs, h, onkey, p, hp => by
    obtain ⟨p₁, h₁, hle₁⟩ := h x (.head _) p hp
    simp only [dumpIterDictLoop, h₁]
    have hle : Le p₁ (if onkey then p₁.append ": " else if xs = [] then p₁ else p₁.append ", ") := by
      split_ifs <;> first | exact le_append _ _ | exact .refl _
    obtain ⟨p₂, h₂, hle₂⟩ := dumpIterDictLoop_ok (fun y hy => h y (.tail _ hy)) (!onkey) _
      ((hle₁.trans hle).fits hp)
    exact ⟨p₂, h₂, hle₁.trans (hle.trans hle₂)⟩

theorem dumpIterWith_ok {loop : Printer → Except Halt (Printer × Bool)} (h : GetsThrough vals loop) :
    GetsThrough vals (dumpIterWith loop) := fun p hp => by
  obtain ⟨p₁, h₁, hle₁⟩ := h (p.withNfo fun n => { n with first := false, ret := false })
    ((le_withNfo _ _).fits hp)
  simp only [dumpIterWith, h₁]
  exact ⟨_, rfl, (le_withNfo _ _).trans (hle₁.trans (le_withNfo _ _))⟩

theorem dumpBracketed_ok (openB closeB : String) {inner : Printer → Except Halt (Printer × Bool)}
    (h : GetsThrough vals inner) {a : Addr} {v : PyVal} (ha : vals.get a = some v) :
    GetsThrough vals (dumpBracketed openB closeB inner · a) := fun p hp => by
  obtain ⟨o, ho, -⟩ := hp.get ha
  obtain ⟨hle, h01⟩ := varPrePrint_live ho
  rcases hvp : p.varPrePrint a with ⟨p₁, k⟩
  rw [hvp] at hle h01
  simp only [dumpBracketed, hvp]
  rcases h01 with rfl | rfl
  · obtain ⟨p₂, h₂, hle₂⟩ := h (p₁.append openB) ((hle.trans (le_append _ _)).fits hp)
    simp only [h₂]
    exact ⟨_, rfl, hle.trans ((le_append _ _).trans (hle₂.trans ((le_append _ _).trans (le_newline _))))⟩
  · exact ⟨p₁, rfl, hle⟩

/-- The argument of an oper, dumped between two texts. -/
theorem dumpBetween_ok {dump : Dumper} {x : Addr} (hd : GetsThrough vals (dump · x)) (t u : String) :
    GetsThrough vals fun p => match dump (p.append t) x with
      | Except.ok (p, true) => Except.ok (p.append u, true)
      | r => r := fun p hp => by
  obtain ⟨p₁, h₁, hle₁⟩ := hd (p.append t) ((le_append _ _).fits hp)
  dsimp only at h₁
  simp only [h₁]
  exact ⟨_, rfl, (le_append _ _).trans (hle₁.trans (le_append _ _))⟩

/-- `dump_oper` on an oper it writes, of one argument on which `dump` gets through. -/
theorem dumpOper_ok {dump : Dumper} (vn : String) {q : OAddr} {pop : PyOper}
    (hq : opers.get q = some pop) (hop : pop.op = .fakeInit ∨ pop.op = .reduce ∨ pop.op = .newobj)
    {x : Addr} (hx : pop.stack = [x]) (hd : GetsThrough vals (dump · x)) :
    GetsThrough vals (dumpOper opers dump vn · q) := fun p hp => by
  simp only [dumpOper, hq]
  rcases hop with h | h | h <;> simp only [h]
  · simp only [dumpOperInit, hx, List.getLast?_singleton]
    exact dumpBetween_ok hd _ _ p hp
  · simp only [dumpOperReduce, hx, List.getLast?_singleton]
    split_ifs
    · exact ⟨p, rfl, .refl p⟩
    · exact dumpBetween_ok hd _ _ p hp
  · simp only [dumpOperNewobj, hx, List.getLast?_singleton]
    split_ifs
    · exact ⟨p, rfl, .refl p⟩
    · exact dumpBetween_ok hd _ _ p hp

theorem dumpOperLoop_ok {dump : Dumper} (vn : String) :
    ∀ {ops : List OAddr}, (∀ q ∈ ops, GetsThrough vals (dumpOper opers dump vn · q)) →
      GetsThrough vals (dumpOperLoop opers dump vn · ops)
  | [], _, p, _ => ⟨p, rfl, .refl p⟩
  | q :: qs, h, p, hp => by
    obtain ⟨p₁, h₁, hle₁⟩ := h q (.head _) p hp
    obtain ⟨p₂, h₂, hle₂⟩ := dumpOperLoop_ok vn (fun y hy => h y (.tail _ hy)) p₁ (hle₁.fits hp)
    simp only [dumpOperLoop, h₁]
    exact ⟨p₂, h₂, hle₁.trans hle₂⟩

/-- `dump_what` as a statement (`first`): the object gets a name, and its opers are
    written under it. -/
theorem dumpWhat_first_ok {dump : Dumper} {ops : List OAddr} {a : Addr} {v : PyVal}
    (ha : vals.get a = some v) (hops : ∀ vn, GetsThrough vals (dumpOperLoop opers dump vn · ops))
    {p : Printer} (hp : p.Fits vals) (hfirst : p.nfo.first = true) :
    ∃ p', dumpWhat opers dump ops p a = .ok (p', true) ∧ Le p p' ∧ (p'.varnameOf a).isSome := by
  obtain ⟨o, ho, -⟩ := hp.get ha
  unfold dumpWhat
  simp only [hfirst, Bool.not_true, Bool.false_eq_true, if_false]
  split
  · next vn hvn _ =>
    exact ⟨_, rfl, (le_append _ _).trans (le_append _ _), by simp [hvn]⟩
  · obtain ⟨hle₁, hname, hs⟩ := objVarname_live ho
    rcases hov : p.objVarname a with ⟨p₁, _ | vn⟩ <;> rw [hov] at hle₁ hname hs
    · simp at hs
    dsimp only
    obtain ⟨p₃, h₃, hle₃⟩ := hops vn (p₁.withNfo fun n => { n with out := none, ret := false, first := false })
      ((hle₁.trans (le_withNfo _ _)).fits hp)
    simp only [h₃]
    split_ifs <;> refine ⟨_, rfl, ?_⟩ <;>
      exact ⟨hle₁.trans ((le_withNfo _ _).trans (hle₃.trans (.of_objs (by simp)))),
        ((le_withNfo _ _).trans (hle₃.trans (.of_objs (by simp)))).names a hname⟩

/-- `prepend_obj` on an unnamed `PY_WHAT` met inline: dumped as a statement of its own,
    which names it, and its name is written in place. -/
theorem prependObj_ok {dump : Dumper} {a : Addr}
    (hd : ∀ q : Printer, q.Fits vals → q.nfo.first = true →
      ∃ q', dump q a = .ok (q', true) ∧ Le q q' ∧ (q'.varnameOf a).isSome)
    {p : Printer} (hp : p.Fits vals) (hf : p.nfo.first = false) :
    ∃ p', prependObj dump p a = .ok (p', true) ∧ Le p p' := by
  unfold prependObj
  rw [if_neg (by simp [hf])]
  obtain ⟨q, hq, hle, hname⟩ := hd (p.withNfo fun n =>
      { n with outstack := n.outstack ++ [n.out], first := true, ret := false, out := none })
    ((le_withNfo _ _).fits hp) rfl
  simp only [hq, if_true]
  have hfin : Le q ((q.drainFree).withNfo fun n =>
      { n with out := (n.outstack.getLast?).getD none, outstack := n.outstack.dropLast,
               first := false, ret := p.nfo.ret }) := (le_drainFree q).trans (le_withNfo _ _)
  obtain ⟨vn, hvn⟩ := Option.isSome_iff_exists.mp (hfin.names a hname)
  rw [hvn]
  exact ⟨_, rfl, (le_withNfo _ _).trans (hle.trans (hfin.trans (le_append _ _)))⟩

end Loops

/-! ## The graph the renderer walks -/

/-- An object `dump_obj` writes: not a set, a frozenset or a split, and, for a
    `PY_WHAT`, only opers that `dump_oper` writes. -/
def PMState.renderable (s : PMState) (a : Addr) : Bool :=
  match s.objs.get a with
  | some o =>
    !(o.type = .set || o.type = .frozenSet || o.type = .split) &&
      o.val.whatOps.all fun p =>
        ((s.opers.get p).map fun q => q.op = .fakeInit || q.op = .reduce || q.op = .newobj).getD true
  | none => true

theorem PMState.renderable_spec {s : PMState} {a : Addr} (h : s.renderable a = true) {o : PyObj}
    (ho : s.objs.get a = some o) : o.type ≠ .set ∧ o.type ≠ .frozenSet ∧ o.type ≠ .split ∧
      ∀ p ∈ o.val.whatOps, ∀ q, s.opers.get p = some q →
        q.op = .fakeInit ∨ q.op = .reduce ∨ q.op = .newobj := by
  simp only [renderable, ho, Bool.and_eq_true, Bool.not_eq_true', Bool.or_eq_false_iff,
    decide_eq_false_iff_not, List.all_eq_true] at h
  obtain ⟨⟨⟨h1, h2⟩, h3⟩, h4⟩ := h
  refine ⟨h1, h2, h3, fun p hp q hq => ?_⟩
  simpa [hq, or_assoc] using h4 p hp

/-- A state a run ends in, read through `f`, is what the run gives through `f`. -/
theorem execRun_read {c : RCore} {s₀ s : PMState} {ops : List (PyOp × RAnalOp)}
    (h : execRun c s₀ ops = some s) {β : Type} (f : PMState → β) {b : β}
    (hb : (execRun c s₀ ops).map f = some b) : f s = b := by
  rw [h] at hb; exact Option.some.inj hb

/-- A node with no owning references reaches only itself. -/
theorem Reach.eq_of_leaf {s : PMState} {a b : Addr} (hb : s.children b = []) (h : Reach s b a) :
    a = b := by
  cases h with
  | refl => rfl
  | step hc _ => simp [hb] at hc

namespace Inv

variable {s : PMState}

/-- Whatever an object owns, directly or through its opers, is live. -/
theorem live_of_children (hi : Inv s []) {a b : Addr} (hb : b ∈ s.children a) :
    ∃ o, s.objs.get b = some o := by
  unfold children at hb
  split at hb
  · next o ho =>
    rcases List.mem_append.mp hb with hb | hb
    · exact hi.live_of_ptr ho hb
    · obtain ⟨p, -, hp⟩ := List.mem_flatMap.mp hb
      unfold operArgs at hp
      cases hq : s.opers.get p with
      | none => simp [hq] at hp
      | some q => exact hi.live_of_arg hq (by simpa [hq] using hp)
  · simp at hb

theorem live_of_reach (hi : Inv s []) {r a : Addr} (hr : r ∈ s.stack) (h : Reach s r a) :
    ∃ o, s.objs.get a = some o := by
  rcases h.eq_or_mem with rfl | ⟨y, hy⟩
  · exact hi.live_of_root (by simp [roots, hr])
  · exact hi.live_of_children hy

/-- Every oper of a live `PY_WHAT` that the renderer writes has one argument, which the
    `PY_WHAT` owns. -/
theorem what_oper_arg (hi : Inv s []) {a : Addr} {o : PyObj} {ops : List OAddr}
    (ho : s.objs.get a = some o) (hv : o.val = .what ops) (hren : s.renderable a = true) {p : OAddr}
    (hp : p ∈ ops) : ∃ q x, s.opers.get p = some q ∧
      (q.op = .fakeInit ∨ q.op = .reduce ∨ q.op = .newobj) ∧ q.stack = [x] ∧ x ∈ s.children a := by
  obtain ⟨q, hq⟩ := hi.operLive_of_ptr ho (show p ∈ o.val.operPtrs by simp [hv, hp])
  have hop := (PMState.renderable_spec hren ho).2.2.2 p (by simp [hv, hp]) q hq
  obtain ⟨p₀, rest, hops, ⟨q₀, x₀, hq₀, -, hx₀, -⟩, hrest⟩ :=
    hi.whatShape a o ho (by simp [PyObj.type, hv, PyVal.type])
  simp only [hv, PyVal.whatOps_what] at hops
  have hone : ∃ x, q.stack = [x] := by
    rw [hops] at hp
    rcases List.mem_cons.mp hp with rfl | hp
    · rw [hq₀] at hq; cases hq; exact ⟨x₀, hx₀⟩
    · obtain ⟨q', hq', hfit⟩ := hrest p hp
      rw [hq'] at hq; cases hq
      rcases hop with h | h | h <;> simp only [h, operFits, beq_iff_eq, Bool.false_eq_true] at hfit
      all_goals exact List.length_eq_one.mp hfit
  obtain ⟨x, hx⟩ := hone
  refine ⟨q, x, hq, hop, hx, ?_⟩
  simp only [children, ho, hv, PyVal.objPtrs, PyVal.operPtrs_what, List.nil_append, List.mem_flatMap]
  exact ⟨p, hp, by simp [operArgs, hq, hx]⟩

end Inv

/-! ## `dump_obj` on an acyclic graph -/

theorem ok_of_scalar {x : Printer × Bool} {p : Printer} (h : Le p x.1 ∧ x.2 = true) :
    ∃ p', (Except.ok x : Except Halt (Printer × Bool)) = .ok (p', true) ∧ Le p p' :=
  ⟨x.1, by rw [← h.2], h.1⟩

section Walk

variable {s : PMState} (cstr : PyObj → String)

/-- `dump_what` on a `PY_WHAT` whose arguments `dump` gets through on, and which
    `dump` writes as a statement: inline it is its name or, unnamed, prepended. -/
theorem dumpWhat_ok {dump : Dumper} {ops : List OAddr} {a : Addr} {v : PyVal}
    {vals : Store PyVal} (ha : vals.get a = some v)
    (hops : ∀ vn, GetsThrough vals (dumpOperLoop s.opers dump vn · ops))
    (hself : ∀ q : Printer, q.Fits vals → q.nfo.first = true →
      ∃ q', dump q a = .ok (q', true) ∧ Le q q' ∧ (q'.varnameOf a).isSome) :
    GetsThrough vals (dumpWhat s.opers dump ops · a) := fun p hp => by
  cases hf : p.nfo.first
  · unfold dumpWhat
    simp only [hf, Bool.not_false, if_true]
    cases p.varnameOf a
    · exact prependObj_ok hself hp hf
    · exact ⟨_, rfl, le_append _ _⟩
  · obtain ⟨p', h, hle, -⟩ := dumpWhat_first_ok s.opers ha hops hp hf
    exact ⟨p', h, hle⟩

/-- `dump_obj` on the graph below a stack object `r` that is acyclic and renderable:
    given a rank `m` that drops along every owning reference, fuel `2 * m a + 2` gets
    through on `a` from every printer, answering `true`. -/
theorem dumpObj_ok (hi : Inv s []) {r : Addr} (hr : r ∈ s.stack)
    (hren : ∀ a, Reach s r a → s.renderable a = true) (m : Addr → Nat)
    (hm : ∀ a b, Reach s r a → b ∈ s.children a → m b < m a) :
    ∀ a, Reach s r a → ∀ n, 2 * m a + 2 ≤ n →
      GetsThrough (s.objs.map (Option.map PyObj.val)) (dumpObj s.opers cstr n · a) := by
  intro a
  obtain ⟨k, hk⟩ : ∃ k, m a = k := ⟨_, rfl⟩
  induction k using Nat.strong_induction_on generalizing a with
  | _ k ih =>
  intro ha n hn
  obtain ⟨o, ho⟩ := hi.live_of_reach hr ha
  have hval : Store.get (s.objs.map (Option.map PyObj.val)) a = some o.val := by
    rw [Store.get_map, ho]; rfl
  have hchild : ∀ b ∈ s.children a, ∀ n', n - 2 ≤ n' →
      GetsThrough (s.objs.map (Option.map PyObj.val)) (dumpObj s.opers cstr n' · b) :=
    fun b hb n' hn' => by
      have hlt := hm a b ha hb
      exact ih (m b) (hk ▸ hlt) b rfl (ha.trans (.step hb (.refl b))) n' (by omega)
  obtain ⟨hset, hfro, hspl, -⟩ := PMState.renderable_spec (hren a ha) ho
  obtain ⟨n, rfl⟩ : ∃ n', n = n' + 1 := ⟨n - 1, by omega⟩
  have hself : ∀ ops, o.val = .what ops → ∀ n', n - 1 ≤ n' → ∀ vn,
      GetsThrough (s.objs.map (Option.map PyObj.val)) (dumpOperLoop s.opers (dumpObj s.opers cstr n') vn · ops) :=
    fun ops hv n' hn' vn => dumpOperLoop_ok s.opers vn fun q hq => by
      obtain ⟨pop, x, hq, hop, hx, hxa⟩ := hi.what_oper_arg ho hv (hren a ha) hq
      exact dumpOper_ok s.opers vn hq hop hx (hchild x hxa n' (by omega))
  intro p hp
  obtain ⟨o', ho', hv'⟩ := hp.get hval
  have hitems : ∀ t items, o.val = .iter t items → ∀ x ∈ items,
      GetsThrough (s.objs.map (Option.map PyObj.val)) (dumpObj s.opers cstr n · x) :=
    fun t items hv x hx => hchild x (by simp [children, ho, hv, hx]) n (by omega)
  simp only [dumpObj, ho', hv']
  cases hov : o.val with
  | iter t items =>
    have hx := hitems t items hov
    cases t
    · exact dumpBracketed_ok _ _ (dumpIterWith_ok (dumpIterLoop_ok hx)) hval p hp
    · exact dumpBracketed_ok _ _ (dumpIterWith_ok (dumpIterLoop_ok hx)) hval p hp
    · exact absurd (by simp [PyObj.type, hov, PyVal.type, IterType.type]) hset
    · exact absurd (by simp [PyObj.type, hov, PyVal.type, IterType.type]) hfro
    · exact dumpBracketed_ok _ _ (dumpIterWith_ok (dumpIterDictLoop_ok hx true)) hval p hp
  | what ops =>
    refine dumpWhat_ok hval (hself ops hov n (Nat.sub_le n 1)) (fun q hq hf => ?_) p hp
    obtain ⟨n, rfl⟩ : ∃ n', n = n' + 1 := ⟨n - 1, by omega⟩
    obtain ⟨o'', ho'', hv''⟩ := hq.get hval
    simp only [dumpObj, ho'', hv'', hov]
    exact dumpWhat_first_ok s.opers hval (hself ops hov n (by omega)) hq hf
  | split => exact absurd (by simp [PyObj.type, hov, PyVal.type]) hspl
  | _ => exact ok_of_scalar (dumpScalar_live _ ho')

end Walk

/-! ## `dump_stack` and `dump_machine` -/

theorem dumpStackLoop_ok {vals : Store PyVal} (opers : Store PyOper) (cstr : PyObj → String)
    (fuel : Nat) (n : String) :
    ∀ {stack : List Addr}, (∀ r ∈ stack, GetsThrough vals (dumpObj opers cstr fuel · r)) →
      ∀ len, GetsThrough vals (dumpStackLoop opers cstr fuel n · len stack)
  | [], _, _, p, _ => ⟨p, rfl, .refl p⟩
  | r :: rest, h, len, p, hp => by
    obtain ⟨p₁, h₁, hle₁⟩ := h r (.head _) ((p.append ("## " ++ n ++ "[" ++ toString (len - 1) ++
        "] " ++ (if len - 1 = 0 then "TOP" else "") ++ "\n")).drain.withNfo fun i =>
          { i with first := true, ret := if len - 1 = 0 then true else i.ret })
      ((Le.of_objs (by simp)).fits hp)
    obtain ⟨p₂, h₂, hle₂⟩ := dumpStackLoop_ok opers cstr fuel n (fun y hy => h y (.tail _ hy))
      (len - 1) p₁.drain ((hle₁.trans (.of_objs (by simp))).fits ((Le.of_objs (by simp)).fits hp))
    simp only [dumpStackLoop, h₁]
    exact ⟨p₂, h₂, (Le.of_objs (by simp)).trans (hle₁.trans ((Le.of_objs (by simp)).trans hle₂))⟩

theorem dumpStack_ok {vals : Store PyVal} (opers : Store PyOper) (cstr : PyObj → String)
    (fuel : Nat) {stack : List Addr} (h : ∀ r ∈ stack, GetsThrough vals (dumpObj opers cstr fuel · r))
    (n : String) : GetsThrough vals (dumpStack opers cstr fuel · stack n) := fun p hp => by
  have hle : Le p ((if stack.length = 0 then p.append ("## stack " ++ n ++ " empty\n") else p).append
      ("## Stack " ++ n ++ " start, len " ++ toString stack.length ++ "\n")) :=
    .of_objs (by split_ifs <;> rfl)
  obtain ⟨p', h', hle'⟩ := dumpStackLoop_ok opers cstr fuel n h stack.length _ (hle.fits hp)
  exact ⟨p', h', hle.trans hle'⟩

/-- The rank the dump descends: the number of objects reachable from a node, which
    drops along every owning reference below an acyclic VM stack. -/
theorem Inv.exists_rank {s : PMState} (hi : Inv s []) (hacyc : StackAcyclic s) :
    ∃ m : Addr → Nat, (∀ a, m a ≤ s.objs.length) ∧
      ∀ r ∈ s.stack, ∀ a b, Reach s r a → b ∈ s.children a → m b < m a := by
  classical
  refine ⟨fun a => ((Finset.range s.objs.length).filter (Reach s a)).card,
    fun a => (Finset.card_filter_le _ _).trans (by simp), fun r hr a b ha hb => ?_⟩
  refine Finset.card_lt_card ((Finset.ssubset_iff_of_subset fun x hx => ?_).mpr ⟨a, ?_, ?_⟩)
  · simp only [Finset.mem_filter] at hx ⊢; exact ⟨hx.1, .step hb hx.2⟩
  · simpa using ⟨Inv.lt_of_live (hi.live_of_reach hr ha), Path.refl a⟩
  · simp only [Finset.mem_filter]; exact fun h => hacyc r hr a ha b hb h.2

/-- Every object of an acyclic, renderable VM stack is dumped with fuel
    `2 * N + 2`, `N` the number of objects. -/
theorem Inv.stack_getsThrough {s : PMState} (hi : Inv s []) (hacyc : StackAcyclic s)
    (hren : ∀ r ∈ s.stack, ∀ a, Reach s r a → s.renderable a = true) (cstr : PyObj → String) :
    ∀ r ∈ s.stack, GetsThrough (s.objs.map (Option.map PyObj.val))
      (dumpObj s.opers cstr (2 * s.objs.length + 2) · r) := fun r hr => by
  obtain ⟨m, hmN, hm⟩ := hi.exists_rank hacyc
  exact dumpObj_ok cstr hi hr (hren r hr) m (hm r hr) r (.refl r) _ (by have := hmN r; omega)

/-- In a reachable state whose VM-stack graph is acyclic, holds no set, frozenset or
    split, and records only opers that `dump_oper` writes, `dump_machine` dumps the VM
    stack and answers `true`. -/
theorem reachable_dump_ok {c : RCore} {s : PMState} (hs : Reachable c s) (hacyc : StackAcyclic s)
    (hren : ∀ r ∈ s.stack, ∀ a, Reach s r a → s.renderable a = true) (cstr : PyObj → String)
    (nfo : PrintInfo) : ∃ fuel p, dumpMachine cstr fuel s { nfo with stack := true } = .ok (p, true) := by
  obtain ⟨p, hp, -⟩ := dumpStack_ok s.opers cstr _ (hs.inv.stack_getsThrough hacyc hren cstr) "VM"
    ⟨{ { nfo with stack := true } with verbose := true, outstack := [] }, "", s.objs⟩ rfl
  dsimp only at hp
  exact ⟨2 * s.objs.length + 2, p.drainFree, by simp only [dumpMachine, if_true, hp]⟩

/-- A stack of copies of the object `2` whose owning references go to the leaves `0` and
    `1`: the graph below it is acyclic, and renderable when those three objects are. -/
theorem whatOverLeaves {s : PMState} (hstack : ∀ r ∈ s.stack, r = 2) (h2 : s.children 2 = [0, 1])
    (h0 : s.children 0 = []) (h1 : s.children 1 = [])
    (hr : s.renderable 2 = true ∧ s.renderable 0 = true ∧ s.renderable 1 = true) :
    StackAcyclic s ∧ ∀ r ∈ s.stack, ∀ a, Reach s r a → s.renderable a = true := by
  have hreach : ∀ a, Reach s 2 a → a = 2 ∨ a = 0 ∨ a = 1 := fun a h => by
    cases h with
    | refl => exact .inl rfl
    | step hb h =>
      rw [h2] at hb
      rcases List.mem_pair.mp hb with rfl | rfl
      · exact .inr (.inl (Reach.eq_of_leaf h0 h))
      · exact .inr (.inr (Reach.eq_of_leaf h1 h))
  refine ⟨fun r hr' a ha b hb hba => ?_, fun r hr' a ha => ?_⟩ <;> obtain rfl := hstack r hr'
  · rcases hreach a ha with rfl | rfl | rfl
    · rw [h2] at hb
      rcases List.mem_pair.mp hb with rfl | rfl
      · exact absurd (Reach.eq_of_leaf h0 hba) (by decide)
      · exact absurd (Reach.eq_of_leaf h1 hba) (by decide)
    · simp [h0] at hb
    · simp [h1] at hb
  · rcases hreach a ha with rfl | rfl | rfl
    exacts [hr.1, hr.2.1, hr.2.2]

/-- `NONE, EMPTY_TUPLE, NEWOBJ`: `None` upgraded to a `PY_WHAT` that calls `__new__` on
    it with `()`. -/
def newobjOps : List (PyOp × RAnalOp) :=
  [(.none, .imm 0), (.emptyTuple, .imm 0), (.newobj, .imm 0)]

theorem reachable_dump_ok_after_newobj :
    ∃ s, execRun .plain (initState 0) newobjOps = some s ∧ StackAcyclic s ∧
      (∀ r ∈ s.stack, ∀ a, Reach s r a → s.renderable a = true) ∧
      ∀ (cstr : PyObj → String) (nfo : PrintInfo),
        ∃ fuel p, dumpMachine cstr fuel s { nfo with stack := true } = .ok (p, true) := by
  obtain ⟨s, hrun⟩ : ∃ s, execRun .plain (initState 0) newobjOps = some s := ⟨_, rfl⟩
  have hstack : s.stack = [2] := execRun_read hrun PMState.stack (by decide)
  obtain ⟨hacyc, hren⟩ := whatOverLeaves (fun r hr => by rwa [hstack, List.mem_singleton] at hr)
    (execRun_read hrun (fun s => s.children 2) (by decide))
    (execRun_read hrun (fun s => s.children 0) (by decide))
    (execRun_read hrun (fun s => s.children 1) (by decide))
    ⟨execRun_read hrun (fun s => s.renderable 2) (by decide),
      execRun_read hrun (fun s => s.renderable 0) (by decide),
      execRun_read hrun (fun s => s.renderable 1) (by decide)⟩
  exact ⟨s, hrun, hacyc, hren, reachable_dump_ok (Reachable.of_plainRun hrun) hacyc hren⟩

/-- `EMPTY_LIST, EMPTY_LIST, REDUCE`: the split the pass adds to the `REDUCE` argument lies
    below the stack, on a cycle through that argument, and `dump_machine` still answers
    `true`, since `dump_oper_reduce` skips an argument that is not a tuple. -/
theorem split_below_stack_rendered :
    ∃ s, execRun .plain (initState 0) reduceListOps = some s ∧
      (∃ r ∈ s.stack, ∃ a, Reach s r a ∧ s.IsSplit a ∧ ∃ b ∈ s.children a, Reach s b a) ∧
      ∀ (cstr : PyObj → String) (v : Bool), ∃ fuel p,
        dumpMachine cstr fuel s (printInfoInit v) = .ok (p, true) := by
  obtain ⟨s, hrun, hout⟩ : ∃ s, execRun .plain (initState 0) reduceListOps = some s ∧
      ∀ (cstr : PyObj → String) (v : Bool), ∃ fuel p,
        dumpMachine cstr fuel s (printInfoInit v) = .ok (p, true) :=
    ⟨_, rfl, fun _ _ => ⟨4, _, rfl⟩⟩
  have hstack : s.stack = [2] := execRun_read hrun PMState.stack (by decide)
  have h2 : s.children 2 = [0, 1] := execRun_read hrun (fun s => s.children 2) (by decide)
  have h1 : s.children 1 = [3] := execRun_read hrun (fun s => s.children 1) (by decide)
  have h3 : s.children 3 = [1] := execRun_read hrun (fun s => s.children 3) (by decide)
  have hsplit : s.IsSplit 3 := execRun_read hrun (fun s => s.typeOf 3) (by decide)
  have h13 : Reach s 1 3 := .step (by simp [h1]) (.refl 3)
  exact ⟨s, hrun, ⟨2, by simp [hstack], 3, .step (by simp [h2]) h13, hsplit, 1, by simp [h3], h13⟩, hout⟩

end PickleDec
