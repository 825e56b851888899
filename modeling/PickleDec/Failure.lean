import PickleDec.Exec

/-!
# What a failing handler leaves behind

`pickle_dec` renders the machine state whether or not `run_pvm` succeeded, so the
state a failing handler returns is part of what the user sees. `py_what_addop`
checks its arguments only after it has already changed the stack: `list_pop_n`
refuses a stack of at most `argc` objects, but `stack_top_to_what` runs before the
result is looked at, so the object left on the stack is upgraded to a `PY_WHAT` and
stays upgraded when the handler reports failure. The cleanup branch (`join might be
in wrong order...`) restores only the popped arguments, of which there are none.
-/

set_option autoImplicit false

namespace PickleDec

open PMState

/-- `py_what_addop` on a stack of one object that is not a `PY_WHAT`, for any
    `argc ≥ 1`: the call fails, and the stack now holds a fresh `PY_WHAT` in place of
    the object, wrapping it in its `FAKE_INIT` oper. -/
theorem pyWhatAddop_short_stack_upgrades (s : PMState) (a : Addr) (h : s.stack = [a])
    (hw : s.typeOf a ≠ some .what) (argc : Nat) (hc : 1 ≤ argc) (op : PyOp) :
    (pyWhatAddop s argc op).1 = false ∧ (pyWhatAddop s argc op).2.stack = [s.objs.length] ∧
      (pyWhatAddop s argc op).2.objs.get s.objs.length =
        some (PyObj.fresh (.what [s.opers.length + 1]) s.offset) ∧
      (pyWhatAddop s argc op).2.opers.get (s.opers.length + 1) = some ⟨.fakeInit, [a], s.offset, 0⟩ := by
  have hn : ¬ argc < 1 := by omega
  simp only [typeOf] at hw
  simp [pyWhatAddop, listPopN, h, hn, stackTopToWhat, newOper, typeOf, hw, pyWhatNew, newObj,
    modObj, modOper, releaseOper, freeFuel, pyopFree, PyObj.fresh]

/-- `NONE` then `REDUCE` from the initial state: `REDUCE` fails, and the `None` it found
    alone on the stack has been replaced by a `PY_WHAT`. -/
theorem reduce_failure_changes_stack :
    ∃ s, execOp .plain (initState 0) (.imm 0) .none = (true, s) ∧ Reachable .plain s ∧
      (execOp .plain s (.imm 0) .reduce).1 = false ∧
      (execOp .plain s (.imm 0) .reduce).2.stack ≠ s.stack := by
  refine ⟨(opNone (initState 0)).2, rfl, .step (.imm 0) .none (.init rfl) rfl, ?_⟩
  have hup := pyWhatAddop_short_stack_upgrades (opNone (initState 0)).2 0 rfl (by decide) 1 le_rfl .reduce
  change (pyWhatAddop _ 1 .reduce).1 = false ∧ (pyWhatAddop _ 1 .reduce).2.stack ≠ _
  rw [hup.2.1]
  exact ⟨hup.1, by decide⟩

end PickleDec
