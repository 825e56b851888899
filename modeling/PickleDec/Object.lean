import Mathlib

/-!
# The object model of `pickle_dec.c`

`PyObj` and `PyOper`, the two structs the pickle machine allocates, on an explicit
heap. Their declarations live in `pyobjutil.h`, which is not part of the sources; the
fields below are exactly the ones `pickle_dec.c` and `dump.c` read and write, with the
C types they are used at:

* a `PyObj` is a type tag with a payload union (`py_bool`, `py_int`, `py_float`,
  `py_str`, `py_iter`, `py_func`, `py_what`, `reduce`) and the bookkeeping fields
  `offset`, `memo_id`, `refcnt`, `varname` and `recurse`;
* a `PyOper` is one recorded opcode of a `PY_WHAT`: `op`, its argument list `stack`,
  `offset` and `refcnt`.

The tag and the payload are one inductive here (`PyVal`), so that a `PY_LIST` whose
payload is a bool cannot be built; `PyObj.type` reads the tag back.

A pointer is an index into a `Store`, a list of cells of which a freed one is `none`.
Allocation appends, so an address is never reused — `pickle_dec.c` never compares a
fresh pointer with a freed one, and nothing below depends on reuse.
-/

set_option autoImplicit false

namespace PickleDec

/-- A `PyObj *`: an index into `PMState.objs`. -/
abbrev Addr := Nat

/-- A `PyOper *`: an index into `PMState.opers`. -/
abbrev OAddr := Nat

/-- `PyType`, the tag of a `PyObj`. -/
inductive PyType where
  | notRight | none | bool | int | float | str | func
  | tuple | list | set | frozenSet | dict | what | split
  deriving DecidableEq, Repr

/-- `PyOp`: the pickle opcodes `exec_op` switches on, and `OP_FAKE_INIT`, the tag
    `py_what_new` gives the first oper of every `PY_WHAT`. -/
inductive PyOp where
  | mark | stop | pop | popMark | dup | float | int | binint | binint1 | long | binint2
  | none | persid | binpersid | reduce | string | binstring | shortBinstring | unicode
  | binunicode | append | build | global | dict | emptyDict | appends | get | binget
  | inst | longBinget | list | emptyList | obj | put | binput | longBinput | setitem
  | tuple | emptyTuple | setitems | binfloat | proto | newobj | ext1 | ext2 | ext4
  | tuple1 | tuple2 | tuple3 | newtrue | newfalse | long1 | long4 | binbytes
  | shortBinbytes | shortBinunicode | binunicode8 | binbytes8 | emptySet | additems
  | frozenset | newobjEx | stackGlobal | memoize | frame | bytearray8 | nextBuffer
  | readonlyBuffer | fakeInit
  deriving DecidableEq, Repr

/-- The five types whose payload is the list `py_iter`. -/
inductive IterType where
  | tuple | list | set | frozenSet | dict
  deriving DecidableEq, Repr

/-- The tag and payload of a `PyObj`. A float is its IEEE-754 bit pattern; the
    pointer fields of `py_func` and `reduce` are `none` once a free has nulled them. -/
inductive PyVal where
  | none
  | bool (b : Bool)
  | int (i : Int)
  | float (bits : UInt64)
  | str (s : String)
  | func (module name : Option Addr)
  | iter (t : IterType) (items : List Addr)
  | what (opers : List OAddr)
  | split (reduce : Option OAddr)
  deriving DecidableEq, Repr

/-- `IterType` as a `PyType`. -/
def IterType.type : IterType → PyType
  | .tuple => .tuple
  | .list => .list
  | .set => .set
  | .frozenSet => .frozenSet
  | .dict => .dict

/-- `obj->type`, read off the payload. -/
def PyVal.type : PyVal → PyType
  | .none => .none
  | .bool _ => .bool
  | .int _ => .int
  | .float _ => .float
  | .str _ => .str
  | .func .. => .func
  | .iter t _ => t.type
  | .what _ => .what
  | .split _ => .split

/-- The objects a payload owns: the elements of an iterable, the two fields of a
    `PY_FUNC`. -/
def PyVal.objPtrs : PyVal → List Addr
  | .iter _ items => items
  | .func m n => m.toList ++ n.toList
  | _ => []

@[simp] theorem PyVal.objPtrs_iter (t : IterType) (items : List Addr) :
    (PyVal.iter t items).objPtrs = items := rfl

@[simp] theorem PyVal.objPtrs_what (ops : List OAddr) : (PyVal.what ops).objPtrs = [] := rfl

@[simp] theorem PyVal.objPtrs_split (r : Option OAddr) : (PyVal.split r).objPtrs = [] := rfl

theorem PyVal.objPtrs_eq_nil_of_split {v : PyVal} (h : v.type = .split) : v.objPtrs = [] := by
  rcases v with _ | _ | _ | _ | _ | _ | ⟨_ | _ | _ | _ | _, _⟩ | _ | _ <;> simp_all [type, IterType.type]

/-- The opers a payload owns: a `PY_WHAT`'s list, a `PY_SPLIT`'s `reduce`. -/
def PyVal.operPtrs : PyVal → List OAddr
  | .what ops => ops
  | .split r => r.toList
  | _ => []

@[simp] theorem PyVal.operPtrs_iter (t : IterType) (items : List Addr) :
    (PyVal.iter t items).operPtrs = [] := rfl

@[simp] theorem PyVal.operPtrs_what (ops : List OAddr) : (PyVal.what ops).operPtrs = ops := rfl

@[simp] theorem PyVal.operPtrs_split (r : Option OAddr) : (PyVal.split r).operPtrs = r.toList := rfl

/-- The opers of a `PY_WHAT`; none for any other payload. -/
def PyVal.whatOps : PyVal → List OAddr
  | .what ops => ops
  | _ => []

theorem PyVal.mem_operPtrs_of_mem_whatOps {v : PyVal} {p : OAddr} (h : p ∈ v.whatOps) :
    p ∈ v.operPtrs := by
  cases v <;> simp_all [whatOps, operPtrs]

@[simp] theorem PyVal.whatOps_what (ops : List OAddr) : (PyVal.what ops).whatOps = ops := rfl

@[simp] theorem PyVal.whatOps_iter (t : IterType) (items : List Addr) :
    (PyVal.iter t items).whatOps = [] := rfl

@[simp] theorem PyVal.whatOps_split (r : Option OAddr) : (PyVal.split r).whatOps = [] := rfl

/-- `UT64_MAX`, the `memo_id` of every object `py_obj_new` creates. -/
def UT64_MAX : UInt64 := 0xffffffffffffffff

/-- `PyObj`. `refcnt` is a C `int` that a free may drive below zero. -/
structure PyObj where
  val : PyVal
  offset : Nat
  memoId : UInt64
  refcnt : Int
  varname : Option String
  recurse : Nat
  deriving DecidableEq, Repr

/-- `PyOper`. A `NULL` argument list is the empty one: every reader of `stack`
    (`r_list_foreach`, `r_list_last`, `list_free_with`) treats the two alike. -/
structure PyOper where
  op : PyOp
  stack : List Addr
  offset : Nat
  refcnt : Int
  deriving DecidableEq, Repr

namespace PyObj

/-- `py_obj_new (pvm, type)` with its payload: `R_NEW0`, then `offset` and `memo_id`. -/
def fresh (v : PyVal) (offset : Nat) : PyObj :=
  { val := v, offset := offset, memoId := UT64_MAX, refcnt := 0, varname := none,
    recurse := 0 }

/-- `obj->type`. -/
def type (o : PyObj) : PyType := o.val.type

/-- The object with its `py_iter` replaced by `items`; other payloads are kept. -/
def withItems (o : PyObj) (items : List Addr) : PyObj :=
  match o.val with
  | .iter t _ => { o with val := .iter t items }
  | _ => o

theorem withItems_val {o : PyObj} {t : IterType} {xs : List Addr} (h : o.val = .iter t xs)
    (items : List Addr) : (o.withItems items).val = .iter t items := by
  simp [withItems, h]

@[simp] theorem withItems_refcnt (o : PyObj) (items : List Addr) :
    (o.withItems items).refcnt = o.refcnt := by
  unfold withItems; split <;> rfl

@[simp] theorem withItems_recurse (o : PyObj) (items : List Addr) :
    (o.withItems items).recurse = o.recurse := by
  unfold withItems; split <;> rfl

@[simp] theorem withItems_type (o : PyObj) (items : List Addr) :
    (o.withItems items).type = o.type := by
  unfold withItems; split <;> simp_all [type, PyVal.type]

@[simp] theorem withItems_whatOps (o : PyObj) (items : List Addr) :
    (o.withItems items).val.whatOps = o.val.whatOps := by
  unfold withItems; split <;> simp_all [PyVal.whatOps]

@[simp] theorem withItems_operPtrs (o : PyObj) (items : List Addr) :
    (o.withItems items).val.operPtrs = o.val.operPtrs := by
  unfold withItems; split <;> simp_all [PyVal.operPtrs]

/-- The object with `p` appended to its `py_what`; other payloads are kept. -/
def addOper (o : PyObj) (p : OAddr) : PyObj :=
  match o.val with
  | .what ops => { o with val := .what (ops ++ [p]) }
  | _ => o

theorem addOper_val {o : PyObj} {ops : List OAddr} (h : o.val = .what ops) (p : OAddr) :
    (o.addOper p).val = .what (ops ++ [p]) := by
  simp [addOper, h]

@[simp] theorem addOper_refcnt (o : PyObj) (p : OAddr) : (o.addOper p).refcnt = o.refcnt := by
  unfold addOper; split <;> rfl

@[simp] theorem addOper_recurse (o : PyObj) (p : OAddr) : (o.addOper p).recurse = o.recurse := by
  unfold addOper; split <;> rfl

@[simp] theorem addOper_type (o : PyObj) (p : OAddr) : (o.addOper p).type = o.type := by
  unfold addOper; split <;> simp_all [type, PyVal.type]

@[simp] theorem addOper_objPtrs (o : PyObj) (p : OAddr) :
    (o.addOper p).val.objPtrs = o.val.objPtrs := by
  unfold addOper; split <;> simp_all [PyVal.objPtrs]

end PyObj

/-! ## Stores -/

/-- A C heap of one struct type: cell `a` is the struct at address `a`, `none` once
    it has been freed. -/
abbrev Store (α : Type) := List (Option α)

namespace Store

variable {α : Type}

/-- Dereference; `none` for a freed or never allocated address. -/
def get (s : Store α) (a : Nat) : Option α := (s[a]?).join

/-- Write the struct at `a`. -/
def set (s : Store α) (a : Nat) (x : α) : Store α := List.set s a (some x)

/-- `free`. -/
def free (s : Store α) (a : Nat) : Store α := List.set s a none

/-- `R_NEW0`: the new struct lives at `s.length`. -/
def alloc (s : Store α) (x : α) : Store α := s ++ [some x]

/-- Update the struct at `a` in place; nothing happens at a dangling address. -/
def modify (s : Store α) (a : Nat) (f : α → α) : Store α :=
  match s.get a with
  | some x => s.set a (f x)
  | none => s

@[simp] theorem get_set (s : Store α) (a b : Nat) (x : α) :
    (s.set a x).get b = if a = b ∧ a < s.length then some x else s.get b := by
  by_cases h : a = b
  · subst h
    by_cases hl : a < s.length
    · simp [get, set, hl]
    · have hl' : (List.set s a (some x)).length ≤ a := by simp; omega
      simp [get, set, hl, List.getElem?_eq_none hl', List.getElem?_eq_none (Nat.le_of_not_lt hl)]
  · simp [get, set, List.getElem?_set, h]

@[simp] theorem get_free (s : Store α) (a b : Nat) :
    (s.free a).get b = if a = b then none else s.get b := by
  by_cases h : a = b <;> simp [get, free, List.getElem?_set, h]

@[simp] theorem get_alloc (s : Store α) (x : α) (b : Nat) :
    (s.alloc x).get b = if b = s.length then some x else s.get b := by
  rcases Nat.lt_trichotomy b s.length with h | rfl | h
  · simp [get, alloc, List.getElem?_append_left h, Nat.ne_of_lt h]
  · simp [get, alloc]
  · have hb : (s ++ [some x]).length ≤ b := by simp; omega
    simp [get, alloc, Nat.ne_of_gt h, List.getElem?_eq_none hb,
      List.getElem?_eq_none (Nat.le_of_lt h)]

@[simp] theorem length_set (s : Store α) (a : Nat) (x : α) : (s.set a x).length = s.length :=
  List.length_set ..

@[simp] theorem length_free (s : Store α) (a : Nat) : (s.free a).length = s.length :=
  List.length_set ..

@[simp] theorem length_alloc (s : Store α) (x : α) : (s.alloc x).length = s.length + 1 := by
  simp [alloc]

@[simp] theorem get_length (s : Store α) : s.get s.length = none := by
  simp [get]

theorem lt_of_get {s : Store α} {a : Nat} {x : α} (h : s.get a = some x) : a < s.length := by
  by_contra hn
  simp [get, List.getElem?_eq_none (Nat.le_of_not_lt hn)] at h

@[simp] theorem get_modify (s : Store α) (a b : Nat) (f : α → α) :
    (s.modify a f).get b = if a = b then (s.get b).map f else s.get b := by
  unfold modify
  cases h : s.get a with
  | none => by_cases hab : a = b <;> simp_all
  | some x =>
    by_cases hab : a = b
    · subst hab; simp [h, lt_of_get h]
    · simp [hab]

@[simp] theorem length_modify (s : Store α) (a : Nat) (f : α → α) :
    (s.modify a f).length = s.length := by
  unfold modify; split <;> simp

theorem modify_eq_set {s : Store α} {a : Nat} {x : α} (h : s.get a = some x) (f : α → α) :
    s.modify a f = s.set a (f x) := by
  simp [modify, h]

theorem modify_alloc_self (s : Store α) (x : α) (f : α → α) :
    (s.alloc x).modify s.length f = s.alloc (f x) := by
  rw [modify_eq_set (by simp : (s.alloc x).get s.length = some x)]
  simp [set, alloc, List.set_append_right]

theorem modify_alloc_of_lt (s : Store α) (x : α) (f : α → α) {a : Nat} (h : a < s.length) :
    (s.alloc x).modify a f = (s.modify a f).alloc x := by
  unfold modify
  rw [get_alloc, if_neg (Nat.ne_of_lt h)]
  split <;> simp [set, alloc, List.set_append_left _ _ h]

theorem free_modify (s : Store α) (a : Nat) (f : α → α) : (s.modify a f).free a = s.free a := by
  unfold modify; split <;> simp [set, free]

theorem modify_of_get_none {s : Store α} {a : Nat} (h : s.get a = none) (f : α → α) :
    s.modify a f = s := by
  simp [modify, h]

/-- Updates of two different cells commute. -/
theorem modify_comm (s : Store α) {a b : Nat} (hab : a ≠ b) (f g : α → α) :
    (s.modify a f).modify b g = (s.modify b g).modify a f := by
  cases ha : s.get a with
  | none =>
    rw [modify_of_get_none ha, modify_of_get_none
      (show (s.modify b g).get a = none by rw [get_modify, if_neg (Ne.symm hab), ha])]
  | some x =>
    cases hb : s.get b with
    | none =>
      rw [modify_of_get_none hb, modify_of_get_none
        (show (s.modify a f).get b = none by rw [get_modify, if_neg hab, hb])]
    | some y =>
      rw [modify_eq_set ha, modify_eq_set hb,
        modify_eq_set (show (s.set a (f x)).get b = some y by simp [hab, hb]),
        modify_eq_set (show (s.set b (g y)).get a = some x by simp [Ne.symm hab, ha])]
      exact List.set_comm _ _ _ hab

/-! ### A store seen through a map of its cells -/

theorem get_map {β : Type} (φ : α → β) (s : Store α) (a : Nat) :
    Store.get (s.map (Option.map φ)) a = (s.get a).map φ := by
  unfold get
  cases h : s[a]? with
  | none => simp [h]
  | some o => cases o <;> simp [h]

theorem map_set {β : Type} (φ : α → β) (s : Store α) (a : Nat) (x : α) :
    (s.set a x).map (Option.map φ) = Store.set (s.map (Option.map φ)) a (φ x) := by
  simp [set, List.map_set]

theorem map_alloc {β : Type} (φ : α → β) (s : Store α) (x : α) :
    (s.alloc x).map (Option.map φ) = Store.alloc (s.map (Option.map φ)) (φ x) := by
  simp [alloc]

/-- Writing back what a cell holds changes nothing. -/
theorem set_self {s : Store α} {a : Nat} {x : α} (h : s.get a = some x) : s.set a x = s := by
  have hx : s[a]? = some (some x) := by
    unfold get at h; cases hs : s[a]? with
    | none => simp [hs] at h
    | some o => simp_all
  apply List.ext_getElem?; intro n
  rw [set, List.getElem?_set]
  split_ifs with h1 h2
  · subst h1; exact hx.symm
  · subst h1; simp [List.getElem?_eq_none (Nat.le_of_not_lt h2)] at hx
  · rfl

theorem map_modify {β : Type} (φ : α → β) (s : Store α) (a : Nat) (f : α → α) {x : α}
    (hx : s.get a = some x) :
    (s.modify a f).map (Option.map φ) = Store.set (s.map (Option.map φ)) a (φ (f x)) := by
  rw [modify_eq_set hx, map_set]

/-- An update that the map does not see. -/
theorem map_modify_of {β : Type} (φ : α → β) (s : Store α) (a : Nat) (f : α → α)
    (hf : ∀ x, φ (f x) = φ x) : (s.modify a f).map (Option.map φ) = s.map (Option.map φ) := by
  cases hx : s.get a with
  | none => rw [modify_of_get_none hx]
  | some x => rw [map_modify φ s a f hx, hf, set_self (by rw [get_map, hx]; rfl)]

/-! ### Counting pointers held in a store -/

/-- The pointers to `x` in one cell, read off by `g`. -/
def cnt (g : α → List Nat) (x : Nat) (c : Option α) : Nat := ((c.map g).getD []).count x

/-- How often `x` occurs in the lists `g` reads off the live cells of `s`: the number
    of pointers to `x` that the structs of one heap hold. -/
def countIn (g : α → List Nat) (s : Store α) (x : Nat) : Nat := (s.map (cnt g x)).sum

theorem sum_map_set {β : Type} (f : β → Nat) :
    ∀ (l : List β) (i : Nat) (v : β) (h : i < l.length),
      ((l.set i v).map f).sum + f l[i] = (l.map f).sum + f v
  | _ :: _, 0, _, _ => by simp; omega
  | _ :: l, i + 1, v, h => by
    have := sum_map_set f l i v (by simpa using h)
    simp only [List.set_cons_succ, List.map_cons, List.sum_cons, List.getElem_cons_succ]
    omega

variable (g : α → List Nat)

@[simp] theorem cnt_none (x : Nat) : cnt g x none = 0 := rfl

@[simp] theorem cnt_some (x : Nat) (y : α) : cnt g x (some y) = (g y).count x := rfl

@[simp] theorem countIn_nil (x : Nat) : countIn g [] x = 0 := rfl

@[simp] theorem countIn_alloc (s : Store α) (y : α) (x : Nat) :
    countIn g (s.alloc y) x = countIn g s x + (g y).count x := by
  simp [countIn, alloc]

theorem countIn_set (s : Store α) (a x : Nat) (y : α) (h : a < s.length) :
    countIn g (s.set a y) x + cnt g x (s.get a) = countIn g s x + (g y).count x := by
  have := sum_map_set (cnt g x) s a (some y) h
  simpa [countIn, set, get, List.getElem?_eq_getElem h] using this

theorem countIn_modify (s : Store α) (a x : Nat) (f : α → α) :
    countIn g (s.modify a f) x + cnt g x (s.get a) = countIn g s x + cnt g x ((s.get a).map f) := by
  cases h : s.get a with
  | none => simp [modify, h]
  | some y => simpa [modify_eq_set h, h] using countIn_set g s a x (f y) (lt_of_get h)

theorem countIn_free (s : Store α) (a x : Nat) :
    countIn g (s.free a) x + cnt g x (s.get a) = countIn g s x := by
  by_cases h : a < s.length
  · have := sum_map_set (cnt g x) s a none h
    simpa [countIn, free, get, List.getElem?_eq_getElem h] using this
  · simp [free, get, List.set_eq_of_length_le (Nat.le_of_not_lt h),
      List.getElem?_eq_none (Nat.le_of_not_lt h)]

@[simp] theorem countIn_modify_of (s : Store α) (a x : Nat) (f : α → α)
    (hf : ∀ y, g (f y) = g y) : countIn g (s.modify a f) x = countIn g s x := by
  have := countIn_modify g s a x f
  cases h : s.get a <;> simp_all

theorem cnt_le_countIn (s : Store α) (a x : Nat) : cnt g x (s.get a) ≤ countIn g s x := by
  have := countIn_free g s a x
  omega

/-- Two distinct cells pointing to `x` both count. -/
theorem cnt_add_cnt_le_countIn (s : Store α) {a b : Nat} (hab : a ≠ b) (x : Nat) :
    cnt g x (s.get a) + cnt g x (s.get b) ≤ countIn g s x := by
  have h1 := countIn_free g s a x
  have h2 := cnt_le_countIn g (s.free a) b x
  rw [get_free, if_neg hab] at h2
  omega

theorem countIn_pos {s : Store α} {a x : Nat} {y : α} (h : s.get a = some y) (hx : x ∈ g y) :
    0 < countIn g s x := by
  have := cnt_le_countIn g s a x
  simp only [h, cnt_some] at this
  exact Nat.lt_of_lt_of_le (List.count_pos_iff.mpr hx) this

theorem get_modify_inv {s : Store α} {a b : Nat} {f : α → α} {y : α} (h : (s.modify a f).get b = some y) :
    ∃ x, s.get b = some x ∧ y = if a = b then f x else x := by
  rw [get_modify] at h
  split_ifs at h with hab
  · obtain ⟨x, hx, rfl⟩ := Option.map_eq_some'.mp h; exact ⟨x, hx, by simp [hab]⟩
  · exact ⟨y, h, by simp [hab]⟩

/-- One more than the count the cell at `a` stores, zero for a dead cell: what the
    number of owners of a cell should be. -/
def held (rc : α → Int) (s : Store α) (a : Nat) : Int := ((s.get a).map fun y => rc y + 1).getD 0

theorem held_modify_of (rc : α → Int) (s : Store α) (a b : Nat) (f : α → α)
    (hf : ∀ y, rc (f y) = rc y) : held rc (s.modify a f) b = held rc s b := by
  unfold held; rw [get_modify]; split_ifs <;> cases s.get b <;> simp [hf]

end Store

end PickleDec
