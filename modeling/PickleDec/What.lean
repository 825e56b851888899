import PickleDec.Machine

/-!
# `PY_WHAT` upgrades and the `REDUCE` split pass

`pickle_dec.c` lines 218–418: turning a stack top into a `PY_WHAT`, recording an
oper on it (`py_what_addop`, `py_what_addop_stack`) and, for `REDUCE`, the split pass
that threads a `PY_SPLIT` marker into every container reachable from the arguments.

The pass is a traversal of a possibly cyclic graph with generation marks. The loops
`split_iter_recures` and `split_what_recures` are written once, over the call they
make; `addSplits` ties the knot and takes fuel, which `splitReduce` sets to one more
than the number of objects: each nested call marks a distinct, previously unmarked
object before it recurses. A loop walks the list it was given: the one list the pass
appends to is the current object's own, after its loop.
-/

set_option autoImplicit false

namespace PickleDec

namespace PMState

/-- `r_list_push (stack, obj)` on the machine stack. -/
def push (s : PMState) (a : Addr) : PMState := { s with stack := s.stack ++ [a] }

/-- `r_list_append (obj->py_what, pop)`. -/
def appendOper (s : PMState) (w : Addr) (p : OAddr) : PMState := s.modObj w (·.addOper p)

/-- `pop->stack = args`. -/
def setOperStack (s : PMState) (p : OAddr) (args : List Addr) : PMState :=
  s.modOper p fun q => { q with stack := args }

end PMState

/-- The loop of `op_iter_n` and `list_pop_n`: pop `n` objects off `stack`,
    prepending each to `items`; `false` at the first pop from an empty list. -/
def iterNLoop : Nat → List Addr → List Addr → Bool × List Addr × List Addr
  | 0, stack, items => (true, stack, items)
  | n + 1, stack, items =>
    match popLast stack with
    | none => (false, stack, items)
    | some (stack, o) => iterNLoop n stack (o :: items)

/-- A loop that gets through pops `n` objects off the end of `stack`. -/
theorem iterNLoop_true {n : Nat} {stack items rest popped : List Addr}
    (h : iterNLoop n stack items = (true, rest, popped)) :
    stack ++ items = rest ++ popped ∧ popped.length = n + items.length := by
  induction n generalizing stack items with
  | zero => cases h; simp
  | succ n ih =>
    unfold iterNLoop at h
    split at h
    · cases h
    · next st o hp =>
      obtain ⟨h1, h2⟩ := ih h
      rw [popLast_eq_some] at hp
      subst hp
      simp only [List.length_cons] at h2
      exact ⟨by simpa using h1, by omega⟩

/-- With more than `n` objects on `stack`, the loop gets through. -/
theorem iterNLoop_fst {n : Nat} {stack items : List Addr} (h : n ≤ stack.length) :
    (iterNLoop n stack items).1 = true := by
  induction n generalizing stack items with
  | zero => rfl
  | succ n ih =>
    obtain ⟨st, o, rfl⟩ : ∃ st o, stack = st ++ [o] :=
      ⟨stack.dropLast, stack.getLast (by rintro rfl; simp at h),
        (List.dropLast_append_getLast _).symm⟩
    simp only [iterNLoop, popLast_concat]
    exact ih (by simp at h; omega)

/-- The loop pops the top `n` objects as they lie. -/
theorem iterNLoop_eq {n : Nat} {stack : List Addr} (h : n ≤ stack.length) :
    iterNLoop n stack [] = (true, stack.take (stack.length - n), stack.drop (stack.length - n)) := by
  have hf : (iterNLoop n stack []).1 = true := iterNLoop_fst h
  rcases hl : iterNLoop n stack [] with ⟨b, rest, popped⟩
  rw [hl] at hf; subst hf
  obtain ⟨h1, h2⟩ := iterNLoop_true hl
  simp only [List.append_nil, List.length_nil, Nat.add_zero] at h1 h2
  subst h1
  simp [h2]

/-- `list_pop_n`: the top `n` objects in order, if more than `n` are on `list`. -/
def listPopN (list : List Addr) (n : Nat) : Option (List Addr × List Addr) :=
  if list.length > n then
    let (_, rest, items) := iterNLoop n list []
    some (rest, items)
  else none

theorem listPopN_eq_some {list rest args : List Addr} {n : Nat}
    (h : listPopN list n = some (rest, args)) :
    list = rest ++ args ∧ args.length = n ∧ rest ≠ [] := by
  unfold listPopN at h
  split at h
  · next hn =>
    have hfst : (iterNLoop n list []).1 = true := iterNLoop_fst (Nat.le_of_lt hn)
    rcases hl : iterNLoop n list [] with ⟨b, r, i⟩
    rw [hl] at h hfst
    cases hfst
    simp only [Option.some.injEq, Prod.mk.injEq] at h
    obtain ⟨rfl, rfl⟩ := h
    obtain ⟨h1, h2⟩ := iterNLoop_true hl
    simp only [List.append_nil, List.length_nil, Nat.add_zero] at h1 h2
    refine ⟨h1, h2, ?_⟩
    rintro rfl
    simp [h1, h2] at hn
  · cases h

/-- `py_what_new`: a `PY_WHAT` whose one oper is `FAKE_INIT` of `obj`. -/
def pyWhatNew (s : PMState) (obj : Addr) : PMState × Addr :=
  let (s, wat) := s.newObj (.what [])
  let (s, pop) := s.newOper .fakeInit [obj]
  (s.modObj wat fun o => { o with val := .what [pop] }, wat)

/-- `stack_top_to_what`: the top of `stack`, upgraded in place to a `PY_WHAT` unless
    it already is one; `NULL` on an empty list. -/
def stackTopToWhat (s : PMState) (stack : List Addr) : PMState × List Addr × Option Addr :=
  match popLast stack with
  | none => (s, stack, none)
  | some (rest, top) =>
    if s.typeOf top = some PyType.what then (s, stack, some top)
    else
      let (s, w) := pyWhatNew s top
      (s, rest ++ [w], some w)

/-- `py_what_addop_stack`: pop the mark, record `op` with the whole marked frame as
    its arguments on the object below the mark. -/
def pyWhatAddopStack (s : PMState) (op : PyOp) : Bool × PMState :=
  match popLast s.metastack with
  | none => (false, s)
  | some (meta, oldstack) =>
    let (s, pop) := PMState.newOper { s with metastack := meta } op []
    match stackTopToWhat s oldstack with
    | (s, oldstack, some w) =>
      (true, { (s.appendOper w pop).setOperStack pop s.stack with stack := oldstack })
    | (s, _, none) => (false, s.releaseOper (some pop))

/-- `itter_add_split`: append `split` to the list of `obj`, replacing a trailing
    `PY_SPLIT` ("no reasons to put two splits next to each other"). -/
def itterAddSplit (s : PMState) (obj split : Addr) : Bool × PMState :=
  let s := match popLast (s.itemsOf obj) with
    | some (rest, last) =>
      if s.typeOf last = some PyType.split then (s.setItems obj rest).release (some last) else s
    | none => s
  (true, (s.setItems obj (s.itemsOf obj ++ [split])).bumpObj split 1)

/-- `split_iter_recures`: `add` on each element, stopping at the first failure. -/
def splitIterRecures (add : PMState → Addr → Bool × PMState) :
    PMState → List Addr → Bool × PMState
  | s, [] => (true, s)
  | s, x :: xs =>
    match add s x with
    | (true, s) => splitIterRecures add s xs
    | (false, s) => (false, s)

/-- `split_what_recures`: `add` on the arguments of each oper of a `PY_WHAT`. -/
def splitWhatRecures (add : PMState → Addr → Bool × PMState) :
    PMState → List OAddr → Bool × PMState
  | s, [] => (true, s)
  | s, p :: ps =>
    match splitIterRecures add s (((s.opers.get p).map PyOper.stack).getD []) with
    | (true, s) => splitWhatRecures add s ps
    | (false, s) => (false, s)

/-- `add_splits`: mark `obj` with the current generation and recurse into its
    elements (or its opers' arguments); every non-tuple iterable then gets `split`.
    Running out of fuel answers `false`. -/
def addSplits : Nat → PMState → Addr → Addr → Bool × PMState
  | 0, s, _, _ => (false, s)
  | n + 1, s, obj, split =>
    match s.objs.get obj with
    | none => (false, s)
    | some o =>
      if o.recurse = s.recurse then (true, s)
      else
        let s := s.modObj obj fun o => { o with recurse := s.recurse }
        match o.val with
        | .iter t items =>
          match splitIterRecures (fun s x => addSplits n s x split) s items with
          | (true, s) => if t = .tuple then (true, s) else itterAddSplit s obj split
          | (false, s) => (false, s)
        | .what ops => splitWhatRecures (fun s x => addSplits n s x split) s ops
        | _ => (true, s)

/-- `split_reduce`: a fresh `PY_SPLIT` naming `pop`, threaded into the graph of the
    last argument under a new generation, then released by the pass's own handle. -/
def splitReduce (s : PMState) (pop : OAddr) : Bool × PMState :=
  let (s, split) := s.newObj (.split none)
  match (s.opers.get pop).bind (·.stack.getLast?) with
  | none => (false, s)
  | some obj =>
    let s := s.modObj split fun o => { o with val := .split (some pop) }
    let s := s.modOper pop fun q => { q with refcnt := q.refcnt + 1 }
    let s := { s with recurse := s.recurse + 1 }
    let (ret, s) := addSplits (s.objs.length + 1) s obj split
    (ret, s.release (some split))

/-- `py_what_addop`: pop `argc` arguments, upgrade the new top to a `PY_WHAT` and
    record `op` on it; `REDUCE` then runs the split pass. On failure the arguments
    are joined back and the oper released. -/
def pyWhatAddop (s : PMState) (argc : Nat) (op : PyOp) : Bool × PMState :=
  let (s, pop) := s.newOper op []
  let (s, args) := match listPopN s.stack argc with
    | some (rest, args) => ({ s with stack := rest }, some args)
    | none => (s, none)
  let (s, stack, obj) := stackTopToWhat s s.stack
  let s := { s with stack := stack }
  match args, obj with
  | some args, some w =>
    let s := (s.appendOper w pop).setOperStack pop args
    if op = .reduce then splitReduce s pop else (true, s)
  | args, _ => (false, PMState.releaseOper { s with stack := s.stack ++ args.getD [] } (some pop))


/-! ## What `py_what_addop` records -/

section Record

open PMState

/-- `py_what_addop` whose new top already is a `PY_WHAT`: the oper joins its list. -/
theorem pyWhatAddop_of_what {s : PMState} {argc : Nat} {rest args : List Addr} {top : Addr}
    (hp : listPopN s.stack argc = some (rest ++ [top], args)) (htw : s.typeOf top = some .what)
    (op : PyOp) :
    pyWhatAddop s argc op =
      let s₁ : PMState := { s with
        stack := rest ++ [top]
        opers := s.opers.alloc ⟨op, args, s.offset, 0⟩
        objs := s.objs.modify top (·.addOper s.opers.length) }
      if op = .reduce then splitReduce s₁ s.opers.length else (true, s₁) := by
  have htw' : (s.objs.get top).map PyObj.type = some .what := htw
  simp only [pyWhatAddop, newOper, hp, stackTopToWhat, popLast_concat, typeOf, htw', if_true]
  simp [appendOper, setOperStack, modObj, modOper, Store.modify_alloc_self]

/-- `py_what_addop` whose new top is not a `PY_WHAT`: `py_what_new` wraps it first. -/
theorem pyWhatAddop_of_wrap {s : PMState} {argc : Nat} {rest args : List Addr} {top : Addr}
    (hp : listPopN s.stack argc = some (rest ++ [top], args)) (htw : s.typeOf top ≠ some .what)
    (op : PyOp) :
    pyWhatAddop s argc op =
      let s₁ : PMState := { s with
        stack := rest ++ [s.objs.length]
        opers := (s.opers.alloc ⟨op, args, s.offset, 0⟩).alloc ⟨.fakeInit, [top], s.offset, 0⟩
        objs := s.objs.alloc (PyObj.fresh (.what [s.opers.length + 1, s.opers.length]) s.offset) }
      if op = .reduce then splitReduce s₁ s.opers.length else (true, s₁) := by
  have htw' : ¬ (s.objs.get top).map PyObj.type = some .what := htw
  simp only [pyWhatAddop, newOper, hp, stackTopToWhat, popLast_concat, typeOf, htw', if_false,
    pyWhatNew, newObj]
  simp [appendOper, setOperStack, modObj, modOper, Store.modify_alloc_self,
    Store.modify_alloc_of_lt, PyObj.addOper, PyObj.fresh]

end Record

end PickleDec
