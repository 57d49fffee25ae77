import Mathlib.Data.BitVec
import Fapolicyd.Rules.Parse

/-!
# The rule list

`rules.c` keeps the loaded rules in a singly linked list, an `llist`: the first
node `head`, a cursor `cur` and the count `cnt`. `rules_append` parses a line
into a fresh node and links it after the last one, found by `rules_last`;
`rules_first` and `rules_next` move the cursor; `rules_unsupport_audit` clears
the `AUDIT` bit of every decision when the build has `USE_AUDIT`; `rules_clear`
frees every node, with the strings its fields point to, and empties the list.

## The model

Memory is a heap of cells, the cell at address `a` being `heap[a]`, `none`
once freed. A live cell holds a list node or a string. `malloc` and `strdup`
hand out fresh cells at the end of the heap, and `free` of a cell that is not
live is undefined: the model stops there. A node is a `Cell`: the rule
`nv_split` filled, the addresses of the strings its fields point to, its number
`num` and its link `next`, `NULL` being `none`. The new node of `rules_append`
is written whole: its `num` is the count the list has when it is linked, and
nothing reads the node before that. The strings `strdup` copies while
`nv_split` reads the line take the cells after the node's, in the order
`rules_clear` frees them; which fresh cell each copy gets is nothing the code
can observe.

Each loop that follows `next` is given as many steps as the heap has cells. A
walk that needs more has met a cell twice, where the C loop goes round
forever; the model then returns `none`, as it does where the C would read a
freed cell or a `NULL` cursor. `exit(1)` inside `nv_split` is `none` too, the
process being gone, and so is a write of `nv_split` past a field array.
-/

namespace Fapolicyd

/-- An address on the heap. -/
abbrev Addr := Nat

/-- A list node, `lnode`: the rule, the addresses of its strings, its number and the link to
the next node. `strs` are the pointers `s[i].str` of the subject fields of a string type,
then `o[i].o` of every object field, in the order `rules_clear` frees them. -/
structure Cell where
  rule : LNode
  strs : List Addr
  num : Nat
  next : Option Addr
  deriving DecidableEq, Repr

/-- What a live cell holds: a node, or a string `strdup` copied. -/
inductive Obj where
  | node (c : Cell)
  | str (s : String)
  deriving DecidableEq, Repr

/-- The heap: the cell at each address, `none` where it was freed. -/
abbrev Heap := List (Option Obj)

/-- The strings `strdup` copies for the fields of `n`, in the order of `Cell.strs`: the text
of each subject field of a string type, then the value of each object field. -/
def LNode.strings (n : LNode) : List String :=
  n.s.filterMap (fun f => if f.type.isStr then f.value.str? else none) ++ n.o.map ObjectAttr.o

/-- The cell at address `a`, `none` where it is free or past the end of the heap. -/
def Heap.get (h : Heap) (a : Addr) : Option Obj := h.getD a none

/-- The node at address `a`, if `a` holds one. -/
def Heap.read (h : Heap) (a : Addr) : Option Cell :=
  match h.get a with
  | some (.node c) => some c
  | _ => none

/-- Store the node `c` at the address `a` of the heap. -/
def Heap.write (h : Heap) (a : Addr) (c : Cell) : Heap := h.set a (some (.node c))

/-- `free`: the cell at `a` becomes free; freeing a cell that is not live stops the model. -/
def Heap.free (h : Heap) (a : Addr) : Option Heap :=
  (h.get a).map fun _ => h.set a none

/-- `free` of each address in turn. -/
def Heap.freeAll (h : Heap) (as : List Addr) : Option Heap := as.foldlM Heap.free h

section HeapLemmas

variable {h : Heap} {a b : Addr}

theorem Heap.get_set_self (ha : a < h.length) (x : Option Obj) : Heap.get (h.set a x) a = x := by
  simp [get, List.getD_eq_getElem?_getD, ha]

theorem Heap.get_set_ne (hab : a ≠ b) (x : Option Obj) : Heap.get (h.set a x) b = h.get b := by
  simp [get, List.getD_eq_getElem?_getD, List.getElem?_set_ne hab]

theorem Heap.get_of_le (hb : h.length ≤ b) : h.get b = none := by
  simp [get, List.getD_eq_getElem?_getD, List.getElem?_eq_none hb]

theorem Heap.lt_of_get {o : Obj} (hc : h.get a = some o) : a < h.length :=
  Nat.lt_of_not_le fun hn => by rw [Heap.get_of_le hn] at hc; cases hc

/-- A cell among cells that hold the strings `ss` holds a string. -/
theorem Heap.get_str_of_mem {ps : List Addr} {ss : List String}
    (hps : ps.map h.get = ss.map fun s => some (.str s)) (hb : b ∈ ps) : ∃ s, h.get b = some (.str s) := by
  obtain ⟨s, -, hs⟩ := List.mem_map.1 (hps ▸ List.mem_map_of_mem h.get hb)
  exact ⟨s, hs.symm⟩

theorem Heap.get_append_old (hb : b < h.length) (xs : Heap) : (h ++ xs).get b = h.get b := by
  simp [get, List.getD_eq_getElem?_getD, List.getElem?_append_left hb]

theorem Heap.get_append_new (xs : Heap) (i : Nat) : (h ++ xs).get (h.length + i) = xs.get i := by
  simp [get, List.getD_eq_getElem?_getD, List.getElem?_append_right]

theorem Heap.read_of_get {c : Cell} (hc : h.get a = some (.node c)) : h.read a = some c := by
  rw [read, hc]

theorem Heap.get_of_read {c : Cell} (hc : h.read a = some c) : h.get a = some (.node c) := by
  unfold read at hc
  split at hc <;> simp_all

/-- Two heaps that hold the same at `a` hold the same node there. -/
theorem Heap.read_congr {h' : Heap} (hg : h'.get a = h.get a) : h'.read a = h.read a := by
  rw [read, read, hg]

theorem Heap.lt_of_read {c : Cell} (hc : h.read a = some c) : a < h.length :=
  Heap.lt_of_get (Heap.get_of_read hc)

@[simp] theorem Heap.length_write (c : Cell) : (h.write a c).length = h.length := List.length_set ..

theorem Heap.read_write_self (ha : a < h.length) (c : Cell) : (h.write a c).read a = some c :=
  Heap.read_of_get (Heap.get_set_self ha _)

theorem Heap.get_write_ne (hab : a ≠ b) (c : Cell) : (h.write a c).get b = h.get b :=
  Heap.get_set_ne hab _

theorem Heap.read_write_ne (hab : a ≠ b) (c : Cell) : (h.write a c).read b = h.read b :=
  Heap.read_congr (Heap.get_write_ne hab c)

theorem Heap.read_append_old (hb : b < h.length) (xs : Heap) : (h ++ xs).read b = h.read b :=
  Heap.read_congr (Heap.get_append_old hb xs)

theorem Heap.read_of_le (hb : h.length ≤ b) : h.read b = none := by
  rw [read, Heap.get_of_le hb]

/-- Two heaps of one length whose every cell is alike are one heap. -/
theorem Heap.ext {h' : Heap} (hlen : h'.length = h.length) (hg : ∀ b, h'.get b = h.get b) :
    h' = h := by
  refine List.ext_getElem hlen fun b h₁ h₂ => ?_
  simpa [Heap.get, List.getD_eq_getElem?_getD, h₁, h₂] using hg b

/-- `free` of a live cell. -/
theorem Heap.free_live {o : Obj} (ha : h.get a = some o) : h.free a = some (h.set a none) := by
  rw [free, ha, Option.map_some']

/-- Freeing distinct live cells, one after the other, frees exactly them. -/
theorem Heap.freeAll_live : ∀ {h : Heap} {as : List Addr}, as.Nodup → (∀ a ∈ as, (h.get a).isSome) →
    ∃ h', h.freeAll as = some h' ∧ h'.length = h.length ∧
      ∀ b, h'.get b = if b ∈ as then none else h.get b
  | h, [], _, _ => ⟨h, rfl, rfl, by simp⟩
  | h, a :: as, hnd, hlive => by
    obtain ⟨o, ho⟩ := Option.isSome_iff_exists.1 (hlive a (List.mem_cons_self _ _))
    have ha := Heap.lt_of_get ho
    have hna : a ∉ as := (List.nodup_cons.1 hnd).1
    obtain ⟨h', hf, hlen, hg⟩ := Heap.freeAll_live (h := h.set a none) (List.nodup_cons.1 hnd).2
      fun b hb => by
        rw [Heap.get_set_ne (fun hab : a = b => hna (hab ▸ hb))]
        exact hlive b (List.mem_cons_of_mem _ hb)
    refine ⟨h', by rw [freeAll, List.foldlM_cons, Heap.free_live ho]; exact hf, by simp [hlen],
      fun b => ?_⟩
    rw [hg]
    by_cases hb : b = a
    · subst hb
      simp [hna, Heap.get_set_self ha]
    · simp [hb, Heap.get_set_ne (Ne.symm hb)]

end HeapLemmas

/-- `llist`, with the heap its nodes live in. -/
structure LList where
  heap : Heap
  head : Option Addr
  cur : Option Addr
  cnt : Nat
  deriving DecidableEq, Repr

/-- `rules_create`. -/
def rulesCreate (heap : Heap) : LList := ⟨heap, none, none, 0⟩

/-- `rules_first`: the cursor goes to the head. -/
def rulesFirst (l : LList) : LList := { l with cur := l.head }

/-- `rules_next`: the cursor moves along `next`, and the node it reaches is returned. -/
def rulesNext (l : LList) : Option (LList × Option Addr) :=
  match l.cur with
  | none => some (l, none)
  | some a => (l.heap.read a).map fun c => ({ l with cur := c.next }, c.next)

theorem rulesNext_heap {l l' : LList} {r : Option Addr} (h : rulesNext l = some (l', r)) :
    l'.heap = l.heap := by
  unfold rulesNext at h
  split at h
  · cases h; rfl
  · obtain ⟨c, -, hc⟩ := Option.map_eq_some'.1 h
    cases hc; rfl

/-- The loop of `rules_last` from the node at `a`: the node whose `next` is `NULL`. -/
def lastFrom (h : Heap) : Nat → Addr → Option Addr
  | 0, _ => none
  | fuel + 1, a => (h.read a).bind fun c =>
    match c.next with
    | none => some a
    | some b => lastFrom h fuel b

/-- `rules_last`: the cursor goes to the last node; an empty list is left alone. -/
def rulesLast (l : LList) : Option LList :=
  match l.head with
  | none => some l
  | some a => (lastFrom l.heap l.heap.length a).map fun w => { l with cur := some w }

/-- The link of `rules_append`: the new node at `a` becomes the head of an empty list,
else the `next` of the node under the cursor. -/
def linkNode (l : LList) (a : Addr) : Option LList :=
  match l.head with
  | none => some { l with head := some a }
  | some _ =>
    match l.cur with
    | none => none
    | some w => (l.heap.read w).map fun c => { l with heap := l.heap.write w { c with next := some a } }

/-- `rules_append(l, buf, lineno)`: parse the line into a new node and link it last.
Returns `0` for a rule and for a line `nv_split` skips, `1` for a `NULL` line or a rule
it refuses; `none` when the process ends in `nv_split` or it writes past a field array.
The node takes the next cell and the copies of its strings the cells after it; for a line
`nv_split` refuses or skips, `free(newnode)` frees the node's cell and leaves the copies. -/
def rulesAppend (D : NameTables) (l : LList) (buf : Option String) (lineno : Nat) :
    Option (Int × LList) :=
  match buf with
  | none => some (1, l)
  | some b =>
    match nvSplit D b lineno with
    | .exit _ | .overrun _ => none
    | .ret rc n _ =>
      let a := l.heap.length
      let copies : Heap := n.strings.map fun s => some (.str s)
      if rc ≠ 0 then some (if rc < 0 then 0 else 1, { l with heap := l.heap ++ none :: copies })
      else
        let c : Cell := ⟨n, (List.range n.strings.length).map (a + 1 + ·), l.cnt, none⟩
        (rulesLast { l with heap := l.heap ++ some (.node c) :: copies }).bind fun l₂ =>
          (linkNode l₂ a).map fun l₃ => (0, { l₃ with cur := some a, cnt := l₃.cnt + 1 })

/-- `current->d &= ~AUDIT`: the rule with the `AUDIT` bit of its decision cleared. -/
def LNode.clearAudit (r : LNode) : LNode := { r with d := r.d &&& ~~~AUDIT }

/-- Clearing `AUDIT` leaves every other bit of the decision and every other field of the
rule as it was. -/
theorem LNode.clearAudit_spec (r : LNode) :
    r.clearAudit.d &&& ~~~AUDIT = r.d &&& ~~~AUDIT ∧ r.clearAudit.d &&& AUDIT = 0 ∧
      { r.clearAudit with d := r.d } = r := by
  refine ⟨by rw [clearAudit, BitVec.and_assoc, BitVec.and_self], by ext i; simp [clearAudit], rfl⟩

theorem LNode.clearAudit_clearAudit (r : LNode) : r.clearAudit.clearAudit = r.clearAudit := by
  simp only [LNode.clearAudit, BitVec.and_assoc, BitVec.and_self]

/-- The node with the `AUDIT` bit of its rule's decision cleared. -/
def Cell.clearAudit (c : Cell) : Cell := { c with rule := c.rule.clearAudit }

/-- The loop of `rules_unsupport_audit`: clear the `AUDIT` bit of each node's decision
from `p` on, and tell whether one was set. -/
def unsupportFrom (h : Heap) : Nat → Option Addr → Option (Heap × Bool)
  | _, none => some (h, false)
  | 0, some _ => none
  | fuel + 1, some a => (h.read a).bind fun c =>
    (unsupportFrom (h.write a c.clearAudit) fuel c.next).map
      fun (h', warn) => (h', (c.rule.d &&& AUDIT != 0) || warn)

/-- `rules_unsupport_audit(l)`, in a build with `USE_AUDIT` or without: the list, and the
warning and notice it logs when a decision had the `AUDIT` bit. -/
def rulesUnsupportAudit (USE_AUDIT : Bool) (l : LList) : Option (LList × List Msg) :=
  if USE_AUDIT then
    (unsupportFrom l.heap l.heap.length l.head).map fun (h, warn) =>
      ({ l with heap := h }, if warn then [.auditUnsupported, .convertingRules] else [])
  else some (l, [])

/-- The loop of `rules_clear`: from `p` on, read each node's `next`, free the strings of
its fields, then the node. -/
def clearFrom (h : Heap) : Nat → Option Addr → Option Heap
  | _, none => some h
  | 0, some _ => none
  | fuel + 1, some a => (h.read a).bind fun c =>
    ((h.freeAll c.strs).bind (·.free a)).bind fun h' => clearFrom h' fuel c.next

/-- `rules_clear(l)`: free every node and its strings; the list is empty. -/
def rulesClear (l : LList) : Option LList :=
  (clearFrom l.heap l.heap.length l.head).map fun h => ⟨h, none, none, 0⟩

/-- The walk of a caller over the list: `rules_first(l)`, then `rules_next(l)` until it
returns `NULL`; the nodes the cursor stands on, in order, within `fuel` calls. -/
def traverse : Nat → LList → Option (List Addr)
  | 0, l =>
    match l.cur with
    | none => some []
    | some _ => none
  | fuel + 1, l =>
    match l.cur with
    | none => some []
    | some a => (rulesNext l).bind fun (l', _) => (traverse fuel l').map (a :: ·)

/-- The calls a caller makes on a list after `rules_create`. -/
inductive Op where
  | append (buf : Option String) (lineno : Nat)
  | first
  | next
  | unsupportAudit
  | clear

/-- One call, the list it leaves; `none` when it does not return. -/
def Op.step (D : NameTables) (USE_AUDIT : Bool) (l : LList) : Op → Option LList
  | .append buf lineno => (rulesAppend D l buf lineno).map Prod.snd
  | .first => some (rulesFirst l)
  | .next => (rulesNext l).map Prod.fst
  | .unsupportAudit => (rulesUnsupportAudit USE_AUDIT l).map Prod.fst
  | .clear => rulesClear l

/-- A sequence of calls. -/
def Op.run (D : NameTables) (USE_AUDIT : Bool) : LList → List Op → Option LList
  | l, [] => some l
  | l, op :: ops => (op.step D USE_AUDIT l).bind fun l' => Op.run D USE_AUDIT l' ops

end Fapolicyd
