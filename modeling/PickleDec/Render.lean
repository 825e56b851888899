import PickleDec.Dump
import PickleDec.Graph

/-!
# What the renderer writes

Facts about `dump_obj` on the graphs the interpreter builds: where its recursion
never comes back, which text it writes for a self-reference, and the names it hands
out.
-/

set_option autoImplicit false

namespace PickleDec

open Printer

section Render

variable (opers : Store PyOper) (cstr : PyObj → String)

/-- Inline (neither `first` nor `ret`), an unnamed list whose first element is the list
    itself never returns: `var_pre_print` gives it no name, so `dump_iter` dumps the
    same list again in the same situation. -/
theorem dumpObj_self_list_inline (n : Nat) (p : Printer) (a : Addr) (o : PyObj) (rest : List Addr)
    (ho : p.objs.get a = some o) (hv : o.varname = none) (hl : o.val = .iter .list (a :: rest))
    (hf : p.nfo.first = false) (hr : p.nfo.ret = false) :
    dumpObj opers cstr n p a = .error .fuel := by
  induction n generalizing p with
  | zero => rfl
  | succ n ih =>
    have hvn : p.varnameOf a = none := by simp [varnameOf, ho, hv]
    have hin : dumpObj opers cstr n ((p.append "[").withNfo fun i => { i with first := false, ret := false }) a =
        .error .fuel := ih _ (by simpa using ho) rfl rfl
    simp [dumpObj, ho, hl, dumpList, dumpBracketed, varPrePrint_inline_unnamed hr hf hvn, dumpIterWith,
      dumpIterLoop, hin]

/-- The same list as the last statement of the stack (`ret`): `return ` is written, the
    list still has no name, and its first element is dumped inline, never returning. -/
theorem dumpObj_self_list_ret (n : Nat) (p : Printer) (a : Addr) (o : PyObj) (rest : List Addr)
    (ho : p.objs.get a = some o) (hv : o.varname = none) (hl : o.val = .iter .list (a :: rest))
    (hr : p.nfo.ret = true) : dumpObj opers cstr n p a = .error .fuel := by
  cases n with
  | zero => rfl
  | succ n =>
    have hvn : p.varnameOf a = none := by simp [varnameOf, ho, hv]
    have hin := dumpObj_self_list_inline opers cstr n
      (((p.append "return ").append "[").withNfo fun i => { i with first := false, ret := false })
      a o rest (by simpa using ho) hv hl rfl rfl
    simp [dumpObj, ho, hl, dumpList, dumpBracketed, varPrePrint_ret_unnamed hr hvn, dumpIterWith,
      dumpIterLoop, hin]

/-- A stack holding only such a list: the one object is dumped under `ret`. -/
theorem dumpStack_self_list (fuel : Nat) (p : Printer) (a : Addr) (o : PyObj) (rest : List Addr)
    (ho : p.objs.get a = some o) (hv : o.varname = none) (hl : o.val = .iter .list (a :: rest))
    (n : String) : dumpStack opers cstr fuel p [a] n = .error .fuel := by
  simp only [dumpStack, dumpStackLoop]
  rw [dumpObj_self_list_ret opers cstr fuel _ a o rest (by simpa using ho) hv hl (by simp)]

end Render

/-- `EMPTY_LIST`, `MEMOIZE`, `BINGET 0`, `APPEND` (the pickle `]\x94h\x00a.`): the list
    containing itself is the whole stack, and `dump_machine` does not return for any
    fuel. -/
theorem self_append_never_rendered :
    ∃ s, execRun .plain (initState 0)
        [(.emptyList, .imm 0), (.memoize, .imm 0), (.binget, .imm 0), (.append, .imm 0)] = some s ∧
      ∀ (cstr : PyObj → String) (fuel : Nat) (nfo : PrintInfo),
        dumpMachine cstr fuel s { nfo with stack := true } = .error .fuel := by
  refine ⟨⟨[some ⟨.iter .list [0], 0, UT64_MAX, 2, none, 0⟩], [], [0], [], [], [(0, some 0)], 0, 0, 0,
    0, false⟩, by decide, fun cstr fuel nfo => ?_⟩
  simp only [dumpMachine, if_true]
  rw [dumpStack_self_list _ cstr fuel _ 0 ⟨.iter .list [0], 0, UT64_MAX, 2, none, 0⟩ []] <;> rfl

/-- The name `obj_varname` derives from `memo_id` `UT64_MAX`, as `%llx` prints it. -/
theorem hex64_UT64_MAX : "var_" ++ hex64 UT64_MAX.toNat = "var_ffffffffffffffff" := by decide

/-- An unnamed object whose `memo_id` is still `UT64_MAX` (non-zero) is named after it,
    whatever `varid` is: `var_ffffffffffffffff`. -/
theorem objVarname_unset_memo (p : Printer) (a : Addr) (o : PyObj) (ho : p.objs.get a = some o)
    (hv : o.varname = none) (hm : o.memoId = UT64_MAX) :
    (p.objVarname a).2 = some "var_ffffffffffffffff" := by
  have h0 : UT64_MAX ≠ 0 := by decide
  simp [objVarname, ho, hv, hm, h0, hex64_UT64_MAX]

/-- `NONE` three times: the two objects below the top are statements of their own, and
    both are named `var_ffffffffffffffff`; and `obj_varname` gives that name to every
    unnamed object whose `memo_id` is still the `UT64_MAX` of `py_obj_new`. -/
theorem two_objects_one_name :
    (∃ s, execRun .plain (initState 0) [(.none, .imm 0), (.none, .imm 0), (.none, .imm 0)] = some s ∧
      ∀ (cstr : PyObj → String) (fuel : Nat) (v : Bool), ∃ p,
        dumpMachine cstr (fuel + 1) s (printInfoInit v) = .ok (p, true) ∧
        p.varnameOf 0 = some "var_ffffffffffffffff" ∧ p.varnameOf 1 = some "var_ffffffffffffffff") ∧
      ∀ (p : Printer) (a : Addr) (o : PyObj), p.objs.get a = some o → o.varname = none →
        o.memoId = UT64_MAX → (p.objVarname a).2 = some "var_ffffffffffffffff" :=
  ⟨⟨_, rfl, fun _ _ _ => ⟨_, rfl, rfl, rfl⟩⟩, objVarname_unset_memo⟩

/-- `EMPTY_LIST`, `MEMOIZE`, `BINGET 0`, `APPEND`, `NONE`: the self-containing list is
    now below the top, a statement of its own named on entry, and its element prints
    that name on the very line that binds it. -/
theorem self_append_named_on_binding_line :
    ∃ s, execRun .plain (initState 0)
        [(.emptyList, .imm 0), (.memoize, .imm 0), (.binget, .imm 0), (.append, .imm 0),
          (.none, .imm 0)] = some s ∧
      ∀ (cstr : PyObj → String) (fuel : Nat) (v : Bool),
        (dumpMachine cstr (fuel + 2) s (printInfoInit v)).map (fun r => (r.1.cons, r.2)) =
          .ok ("## Stack VM start, len 2\n## VM[1] \nvar_ffffffffffffffff = [var_ffffffffffffffff]\n" ++
            "## VM[0] TOP\nreturn None\n", true) :=
  ⟨_, rfl, fun _ _ _ => rfl⟩

/-- `%d` keeps the low 32 bits: integers `2 ^ 32` apart print alike. -/
theorem cIntText_add_two_pow_32 (i : Int) : cIntText (i + 2 ^ 32) = cIntText i := by
  simp only [cIntText]
  rw [show ((2 : Int) ^ 32) = ((2 ^ 32 : Nat) : Int) by norm_cast, Int.bmod_add_cancel]

/-- `LONG1` with the value `2 ^ 32`: the object holds `4294967296`, the pseudocode
    returns `0`; and `dump_int` writes any two integers `2 ^ 32` apart alike. -/
theorem long_int_printed_truncated :
    (∃ s, execRun .plain (initState 0) [(.long1, .imm 4294967296)] = some s ∧
      (s.objs.get 0).map PyObj.val = some (.int 4294967296) ∧
      ∀ (cstr : PyObj → String) (fuel : Nat) (v : Bool),
        (dumpMachine cstr (fuel + 1) s (printInfoInit v)).map (fun r => (r.1.cons, r.2)) =
          .ok ("## Stack VM start, len 1\n## VM[0] TOP\nreturn 0\n", true)) ∧
      ∀ (i : Int) (p : Printer) (a : Addr), dumpInt (i + 2 ^ 32) p a = dumpInt i p a :=
  ⟨⟨_, rfl, rfl, fun _ _ _ => rfl⟩, fun i _ _ => by rw [dumpInt, dumpInt, cIntText_add_two_pow_32]⟩

/-- `EMPTY_SET`: one empty set on the stack, an acyclic graph, and `dump_obj` refuses
    it ("Can't handle type") for every fuel. -/
theorem empty_set_refused :
    ¬ ∀ (c : RCore) (s : PMState), Reachable c s → StackAcyclic s →
      ∀ (cstr : PyObj → String) (nfo : PrintInfo),
        ∃ fuel p, dumpMachine cstr fuel s { nfo with stack := true } = .ok (p, true) := by
  intro h
  let s : PMState :=
    ⟨[some ⟨.iter .set [], 0, UT64_MAX, 0, none, 0⟩], [], [0], [], [], [], 0, 0, 0, 0, false⟩
  have hrun : execRun .plain (initState 0) [(.emptySet, .imm 0)] = some s := by decide
  have hleaf : ∀ a, s.children a = [] := by
    intro a; rcases a with _ | a <;> rfl
  have hinit : initMachineState .plain = some (initState 0) := rfl
  obtain ⟨fuel, p, hp⟩ := h .plain s ((Reachable.init hinit).of_execRun hrun)
    (fun _ _ a _ b hb => by simp [hleaf a] at hb) (fun _ => "") (printInfoInit false)
  cases fuel with
  | zero => exact absurd hp (by simp [dumpMachine, dumpStack, dumpStackLoop, dumpObj, s])
  | succ n =>
    have hfalse : ∃ q, dumpMachine (fun _ => "") (n + 1) s { printInfoInit false with stack := true } =
        .ok (q, false) := ⟨_, rfl⟩
    obtain ⟨q, hq⟩ := hfalse
    simp [hq] at hp

end PickleDec
