import PickleDec.Object

/-!
# `PMState`, the memo table, and releasing objects

The machine state of `pickle_dec.c`, the radare2 containers it is built from, and the
two ways an object is released (`py_obj_free`, `py_obj_deep_free`).

An `RList` is a Lean list in the same order: `r_list_push` and `r_list_append` add at
the end, `r_list_pop` removes the last element (`popLast`), `r_list_pop_head` the first.
The memo is an `HtUP` from slot to object pointer; the slot may hold `NULL`
(`memo_put` on an empty stack stores one), so a value is an `Option Addr`.

The frees recurse through the object graph, which may be cyclic, so they take fuel.
`freeFuel` (one more than the number of cells) is what every caller passes: along
any chain of nested calls each object or oper has had its owning pointers nulled on
entry, so none repeats with pointers left to follow.
-/

set_option autoImplicit false

namespace PickleDec

/-! ## `RList` -/

/-- `r_list_pop`: the list without its tail, and the tail. -/
def popLast {α : Type} (xs : List α) : Option (List α × α) :=
  match xs.reverse with
  | [] => none
  | x :: r => some (r.reverse, x)

@[simp] theorem popLast_nil {α : Type} : popLast ([] : List α) = none := rfl

@[simp] theorem popLast_concat {α : Type} (xs : List α) (x : α) :
    popLast (xs ++ [x]) = some (xs, x) := by
  simp [popLast]

@[simp] theorem popLast_singleton {α : Type} (x : α) : popLast [x] = some ([], x) := rfl

theorem popLast_eq_none {α : Type} {xs : List α} : popLast xs = none ↔ xs = [] := by
  cases xs using List.reverseRecOn <;> simp

theorem popLast_eq_some {α : Type} {xs ys : List α} {x : α} :
    popLast xs = some (ys, x) ↔ xs = ys ++ [x] := by
  constructor
  · intro h
    cases xs using List.reverseRecOn with
    | nil => simp at h
    | append_singleton zs z =>
      simp only [popLast_concat, Option.some.injEq, Prod.mk.injEq] at h
      rw [h.1, h.2]
  · rintro rfl; simp

/-! ## Host and decoder -/

/-- What the handlers reach outside the pickle machine: the core's offset and
    configuration (`init_machine_state`), its io for long string payloads
    (`r_io_read_at` then `r_str_escape_raw`, in `get_big_str`), and the C library's
    `sscanf` with a `%lf` conversion (`op_float`). -/
structure RCore where
  offset : Nat
  arch : String
  readEscaped : Nat → Nat → Option String
  sscanfLf : String → String → Option UInt64

/-- The fields of a decoded `RAnalOp` the interpreter reads: the immediate `val`,
    the `mnemonic`, the long-string pointer and size, the length, and whether the
    disassembler marked it `R_ANAL_OP_TYPE_ILL`. -/
structure RAnalOp where
  val : Int
  mnemonic : String
  ptr : Nat
  ptrsize : Nat
  size : Nat
  ill : Bool
  deriving DecidableEq, Repr

/-- A decoded op that carries only the immediate `v`: no mnemonic, no long-string
    pointer, one byte long. -/
def RAnalOp.imm (v : Int) : RAnalOp := ⟨v, "", 0, 0, 1, false⟩

/-! ## The memo table -/

/-- `HtUP *memo`: slot and value, one entry per slot, in insertion order. -/
abbrev Memo := List (Nat × Option Addr)

/-- `ht_up_find (memo, loc, NULL)`: `NULL` for a missing slot and a `NULL` value alike. -/
def memoFind (m : Memo) (k : Nat) : Option Addr := (m.lookup k).join

theorem mem_of_memoFind {m : Memo} {k : Nat} {a : Addr} (h : memoFind m k = some a) :
    (k, some a) ∈ m := by
  obtain ⟨l₁, l₂, rfl, -⟩ := List.lookup_eq_some_iff.mp (Option.join_eq_some.mp h)
  simp

/-- `ht_up_update`: overwrite slot `k`, or add it. The value replaced, if any, is
    returned: radare2 hands the replaced pair to the table's free function, `_kv_free`,
    which releases it with `py_obj_free`. -/
def memoUpdate (m : Memo) (k : Nat) (v : Option Addr) : Memo × Option (Option Addr) :=
  match m.lookup k with
  | some old => (m.map fun e => if e.1 = k then (k, v) else e, some old)
  | none => (m ++ [(k, v)], none)

theorem memoUpdate_keys {m : Memo} (hk : (m.map Prod.fst).Nodup) (k : Nat) (v : Option Addr) :
    ((memoUpdate m k v).1.map Prod.fst).Nodup := by
  unfold memoUpdate
  split
  · rw [List.map_map]
    convert hk using 1
    exact List.map_congr_left fun e _ => by simp only [Function.comp]; split_ifs with h <;> simp [h]
  · next hl =>
    rw [List.map_append, List.nodup_append]
    refine ⟨hk, by simp, fun a ha hb => ?_⟩
    simp only [List.map_cons, List.map_nil, List.mem_singleton] at hb; subst hb
    obtain ⟨e, he, rfl⟩ := List.mem_map.mp ha
    simpa using List.lookup_eq_none_iff.mp hl e he

/-- The values of the memo after `memoUpdate`, with the value it replaced: those before,
    with the new one. -/
theorem memoUpdate_count {m : Memo} (hk : (m.map Prod.fst).Nodup) (k : Nat) (v : Option Addr)
    (a : Nat) :
    ((memoUpdate m k v).1.filterMap Prod.snd).count a + ((memoUpdate m k v).2.bind id).toList.count a =
      (m.filterMap Prod.snd).count a + v.toList.count a := by
  unfold memoUpdate
  split
  · next old hl =>
    obtain ⟨l₁, l₂, rfl, hl₁⟩ := List.lookup_eq_some_iff.mp hl
    have hl₂ : ∀ e ∈ l₂, e.1 ≠ k := fun e he hek => by
      simp only [List.map_append, List.map_cons, List.nodup_append, List.nodup_cons] at hk
      exact hk.2.1.1 (hek ▸ List.mem_map_of_mem _ he)
    have hmap : ∀ l : Memo, (∀ e ∈ l, e.1 ≠ k) →
        l.map (fun e => if e.1 = k then (k, v) else e) = l := fun l hl =>
      (List.map_congr_left (fun e he => by simp [hl e he]) :
        l.map (fun e => if e.1 = k then (k, v) else e) = l.map id).trans (List.map_id l)
    rw [List.map_append, List.map_cons, hmap l₁ fun e he h => by simpa [h] using hl₁ e he,
      hmap l₂ hl₂, if_pos rfl]
    cases v <;> cases old <;> simp [List.filterMap_append, List.filterMap_cons, List.count_cons] <;> omega
  · cases v <;> simp

/-! ## The state -/

/-- `PMState`, with the object and oper heaps made explicit. `end` and `verbose` are
    set by `init_machine_state` and read by nothing modelled here. -/
structure PMState where
  objs : Store PyObj
  opers : Store PyOper
  stack : List Addr
  metastack : List (List Addr)
  popstack : List Addr
  memo : Memo
  offset : Nat
  start : Nat
  ver : Int
  recurse : Nat
  breakOnStop : Bool
  deriving DecidableEq

namespace PMState

/-- `obj->type` through a pointer; `none` when it dangles. -/
def typeOf (s : PMState) (a : Addr) : Option PyType := (s.objs.get a).map PyObj.type

/-- `obj->py_iter` (or `py_what`) of the object at `a`: its elements, or `[]`. -/
def itemsOf (s : PMState) (a : Addr) : List Addr :=
  match s.objs.get a with
  | some { val := .iter _ items, .. } => items
  | _ => []

/-- Update the object at `a`. -/
def modObj (s : PMState) (a : Addr) (f : PyObj → PyObj) : PMState :=
  { s with objs := s.objs.modify a f }

/-- Update the oper at `p`. -/
def modOper (s : PMState) (p : OAddr) (f : PyOper → PyOper) : PMState :=
  { s with opers := s.opers.modify p f }

/-- `py_obj_new` with its payload; the new object's address. -/
def newObj (s : PMState) (v : PyVal) : PMState × Addr :=
  ({ s with objs := s.objs.alloc (PyObj.fresh v s.offset) }, s.objs.length)

/-- `py_oper_new` with its argument list; the new oper's address. -/
def newOper (s : PMState) (op : PyOp) (args : List Addr) : PMState × OAddr :=
  ({ s with opers := s.opers.alloc ⟨op, args, s.offset, 0⟩ }, s.opers.length)

/-- Replace the elements of the iterable at `a`. -/
def setItems (s : PMState) (a : Addr) (items : List Addr) : PMState :=
  s.modObj a (·.withItems items)

/-- Add to an object's `refcnt`. -/
def bumpObj (s : PMState) (a : Addr) (d : Int) : PMState :=
  s.modObj a fun o => { o with refcnt := o.refcnt + d }

/-- Fuel for a free: one more than the number of cells. -/
def freeFuel (s : PMState) : Nat := s.objs.length + s.opers.length + 1

end PMState

/-! ## Releasing objects -/

/-- A payload with its owning pointers nulled, as `py_obj_free_internal` leaves it.
    `py_iter` and `py_what` share the payload union, so nulling `py_what` (which the
    code does for every iterable) empties `py_iter`. -/
def PyVal.nulled : PyVal → PyVal
  | .iter t _ => .iter t []
  | .what _ => .what []
  | .split _ => .split Option.none
  | .func .. => .func Option.none Option.none
  | v => v

/-- `py_obj_free_internal (obj, deep)`: free the name, null the owning pointers, then
    release what they pointed to with `objF` (`py_obj_free` or `py_obj_deep_free`)
    and `opF` (`pyop_free` or `pyop_deep_free`), in the code's order. -/
def pyObjFreeInternal (objF : PMState → Option Addr → PMState)
    (opF : PMState → Option OAddr → PMState) (s : PMState) (a : Addr) : PMState :=
  match s.objs.get a with
  | none => s
  | some o =>
    let s := s.modObj a fun o => { o with varname := none, val := o.val.nulled }
    match o.val with
    | .iter _ items => items.foldl (fun s x => objF s (some x)) s
    | .split r => opF s r
    | .func m n => objF (objF s n) m
    | .what ops => ops.foldl (fun s p => opF s (some p)) s
    | _ => s

/-- The end of both frees: `free (obj)` once the count has dropped past zero. -/
def releaseObj (s : PMState) (a : Addr) (o : PyObj) : PMState :=
  if o.refcnt ≤ 0 then { s with objs := s.objs.free a } else s

mutual

/-- `py_obj_free`: drop one reference; at zero, release the payload and the object. -/
def pyObjFree : Nat → PMState → Option Addr → PMState
  | 0, s, _ => s
  | _ + 1, s, none => s
  | n + 1, s, some a =>
    match s.objs.get a with
    | none => s
    | some o =>
      let s := s.bumpObj a (-1)
      if o.refcnt ≤ 0 then
        let s := pyObjFreeInternal (pyObjFree n) (pyopFree n) s a
        { s with objs := s.objs.free a }
      else s

/-- `py_obj_deep_free`: release the payload first, then drop the reference. -/
def pyObjDeepFree : Nat → PMState → Option Addr → PMState
  | 0, s, _ => s
  | _ + 1, s, none => s
  | n + 1, s, some a =>
    let s := pyObjFreeInternal (pyObjDeepFree n) (pyopDeepFree n) s a
    match s.objs.get a with
    | none => s
    | some o => releaseObj (s.bumpObj a (-1)) a o

/-- `pyop_free`: drop one reference; at zero, release the arguments and the oper. -/
def pyopFree : Nat → PMState → Option OAddr → PMState
  | 0, s, _ => s
  | _ + 1, s, none => s
  | n + 1, s, some p =>
    match s.opers.get p with
    | none => s
    | some q =>
      let s := s.modOper p fun q => { q with refcnt := q.refcnt - 1 }
      if q.refcnt ≤ 0 then
        let s := (s.modOper p fun q => { q with stack := [] })
        let s := q.stack.foldl (fun s x => pyObjFree n s (some x)) s
        { s with opers := s.opers.free p }
      else s

/-- `pyop_deep_free`: release the arguments first, then drop the reference. -/
def pyopDeepFree : Nat → PMState → Option OAddr → PMState
  | 0, s, _ => s
  | _ + 1, s, none => s
  | n + 1, s, some p =>
    match s.opers.get p with
    | none => s
    | some q =>
      let s := s.modOper p fun q => { q with stack := [] }
      let s := q.stack.foldl (fun s x => pyObjDeepFree n s (some x)) s
      match s.opers.get p with
      | none => s
      | some q' =>
        let s := s.modOper p fun q => { q with refcnt := q.refcnt - 1 }
        if q'.refcnt ≤ 0 then { s with opers := s.opers.free p } else s

end

namespace PMState

/-- `py_obj_free (obj)` as every caller in `pickle_dec.c` runs it. -/
def release (s : PMState) (a : Option Addr) : PMState := pyObjFree s.freeFuel s a

/-- `pyop_free (pop)` as every caller runs it. -/
def releaseOper (s : PMState) (p : Option OAddr) : PMState := pyopFree s.freeFuel s p

end PMState

end PickleDec
