import Fapolicyd.Store.Chain
import Fapolicyd.Rules.ParseFacts

/-!
# The rule list refines a list of rules

What the store is for: a list of rules, to which `rules_append` adds, at the
end, the rule of each line that `nv_split` accepts; which `rules_clear`
empties; and whose decisions `rules_unsupport_audit` strips of the `AUDIT` bit
in a build with `USE_AUDIT`. Moving the cursor does not change it. `Op.abs`
says this of one call and `Op.absRun` of a sequence of calls.

## The model

`Rep l as rs` is the representation invariant: the chain from `head` visits the
nodes at `as`, none twice; they are numbered `0, 1, ..., cnt - 1` in order and
hold the rules `rs`; each points at live copies of its strings; no two of the
cells the nodes own are one; and the cursor is `NULL` or on a node. `HeapStep`
says what one call may do to memory: grow the heap, write the cells of the
list and those it allocates, free the cells of the nodes it drops, and leave
behind the copies of the strings of a line `nv_split` refuses, which
`Op.leaks` names.

## What is proved

Each call keeps `Rep`, changes the rules as `Op.abs` says and touches memory
only as `HeapStep` allows, and it returns, unless it is an append whose line
ends the process or makes `nv_split` write past a field array (`Rep.step`).
From `rules_create`, a sequence of calls ends in a list that represents the
rules `Op.absRun` gives and that `rules_first` and `rules_next` walk in order,
or it stops at such an append (`rules_store_refines`). A line of more than
`MAX_FIELDS` subject fields is such an append, where `rules.c` stores the
fields past `s` and goes on with a node no list of rules describes. A refused
or skipped append adds to the heap only a freed cell and the copies it leaks
(`rulesAppend_fail`).
-/

namespace Fapolicyd

/-- The representation invariant: `l` holds the rules `rs` in the nodes at `as`. -/
structure Rep (l : LList) (as : List Addr) (rs : List LNode) : Prop where
  chain : Chain l.heap l.head as
  nodup : (l.heap.footprint as).Nodup
  nums : l.heap.collect Cell.num as = List.range l.cnt
  rules : l.heap.collect Cell.rule as = rs
  strs : ∀ a ∈ as, ∀ c, l.heap.read a = some c →
    c.strs.map l.heap.get = c.rule.strings.map fun s => some (.str s)
  cur : ∀ a, l.cur = some a → a ∈ as

/-- What a call does to the rules the store holds. -/
def Op.abs (D : NameTables) (USE_AUDIT : Bool) (rs : List LNode) : Op → List LNode
  | .append (some b) lineno =>
    match nvSplit D b lineno with
    | .ret rc n _ => if rc = 0 then rs ++ [n] else rs
    | .exit _ | .overrun _ => rs
  | .append none _ | .first | .next => rs
  | .unsupportAudit => if USE_AUDIT then rs.map LNode.clearAudit else rs
  | .clear => []

/-- The rules the store holds after a sequence of calls from `rules_create`. -/
def Op.absRun (D : NameTables) (USE_AUDIT : Bool) (ops : List Op) : List LNode :=
  ops.foldl (Op.abs D USE_AUDIT) []

/-- The call is an append whose line ends the process in `nv_split`. -/
def Op.Exits (D : NameTables) : Op → Prop
  | .append (some b) lineno => ∃ log, nvSplit D b lineno = .exit log
  | _ => False

/-- The call is an append whose line makes `nv_split` write past a field array. -/
def Op.Overruns (D : NameTables) : Op → Prop
  | .append (some b) lineno => ∃ log, nvSplit D b lineno = .overrun log
  | _ => False

/-- The strings a call leaks: the copies `strdup` made for a line `nv_split` refuses or
skips, which `free(newnode)` leaves behind. -/
def Op.leaks (D : NameTables) : Op → List String
  | .append (some b) lineno =>
    match nvSplit D b lineno with
    | .ret rc n _ => if rc = 0 then [] else n.strings
    | .exit _ | .overrun _ => []
  | .append none _ | .first | .next | .unsupportAudit | .clear => []

/-! ### Heaps that agree on the nodes -/

section Heaps

variable {α : Type} {f : Cell → α} {h h' : Heap} {as : List Addr}

theorem Heap.collect_append_cells (hc : ∀ a ∈ as, a < h.length) (xs : Heap) :
    (h ++ xs).collect f as = h.collect f as :=
  Heap.collect_congr fun a ha => by rw [Heap.read_append_old (hc a ha)]

/-- Writing a node's link leaves every other field of every node as it was. -/
theorem Heap.read_write_next (hf : ∀ c x, f { c with next := x } = f c) {w : Addr} {c : Cell}
    (hrw : h.read w = some c) (x : Option Addr) (a : Addr) :
    ((h.write w { c with next := x }).read a).map f = (h.read a).map f := by
  by_cases ha : w = a
  · subst ha
    simp [Heap.read_write_self (Heap.lt_of_read hrw), hrw, hf]
  · rw [Heap.read_write_ne ha]

theorem Heap.collect_map_read {g : Cell → Cell} (hg : ∀ a ∈ as, h'.read a = (h.read a).map g) :
    h'.collect f as = h.collect (f ∘ g) as :=
  List.filterMap_congr fun a ha => by rw [hg a ha, Option.map_map]

/-- The cells of `k` copies allocated after a node at `a`. -/
theorem mem_copies {a k b : Nat} : b ∈ (List.range k).map (a + 1 + ·) ↔ a < b ∧ b < a + 1 + k := by
  simp only [List.mem_map, List.mem_range]
  constructor
  · rintro ⟨i, hi, rfl⟩
    omega
  · exact fun hb => ⟨b - (a + 1), by omega, by omega⟩

theorem nodup_copies (a k : Nat) : ((List.range k).map (a + 1 + ·)).Nodup :=
  (List.nodup_range k).map fun _ _ h => Nat.add_left_cancel h

/-- The copies, read back from the heap they were appended to after the cell `y`. -/
theorem Heap.get_copies (y : Option Obj) (xs : Heap) :
    ((List.range xs.length).map (h.length + 1 + ·)).map (Heap.get (h ++ y :: xs)) = xs := by
  refine List.ext_getElem (by simp) fun i h₁ h₂ => ?_
  rw [List.getElem_map, List.getElem_map, List.getElem_range, Nat.add_assoc, Heap.get_append_new,
    Nat.add_comm]
  simp [Heap.get, List.getD_eq_getElem?_getD, h₂]

end Heaps

/-! ### What one call does to memory -/

/-- What one call may do to memory, `as` being the nodes of the list before it, `as'` after,
and `lk` the cells it leaks: the heap only grows; a cell the list did not own keeps what it
held; a cell of a node the list drops is freed; a cell the new list owns was owned before or
is one the call allocated; and a cell the call allocated is owned by the new list, leaked,
or free. -/
structure HeapStep (l : LList) (as : List Addr) (l' : LList) (as' : List Addr) (lk : List Addr) :
    Prop where
  grows : l.heap.length ≤ l'.heap.length
  frame : ∀ b < l.heap.length, b ∉ l.heap.footprint as → l'.heap.get b = l.heap.get b
  freed : ∀ b ∈ l.heap.footprint as, b ∉ l'.heap.footprint as' → l'.heap.get b = none
  fresh : ∀ b ∈ l'.heap.footprint as', b ∈ l.heap.footprint as ∨ l.heap.length ≤ b
  new : ∀ b, l.heap.length ≤ b → b ∉ l'.heap.footprint as' → b ∉ lk → l'.heap.get b = none
  leaked : ∀ b ∈ lk, l.heap.length ≤ b ∧ b ∉ l'.heap.footprint as'

/-- A call that leaves the heap as it was. -/
theorem HeapStep.of_heap_eq {l l' : LList} {as : List Addr} (h : l'.heap = l.heap) :
    HeapStep l as l' as [] := by
  refine ⟨h ▸ le_rfl, fun b _ _ => by rw [h], fun _ hb hb' => absurd (h ▸ hb) hb',
    fun _ hb => .inl (h ▸ hb), fun b hb _ _ => ?_, fun _ hb => absurd hb (List.not_mem_nil _)⟩
  rw [h, Heap.get_of_le hb]

/-! ### Each call keeps the invariant -/

namespace Rep

variable {D : NameTables} {l : LList} {as : List Addr} {rs : List LNode}

theorem nodes_nodup (hr : Rep l as rs) : as.Nodup := Heap.nodup_of_footprint hr.nodup

/-- The list has `cnt` nodes. -/
theorem length_eq (hr : Rep l as rs) : as.length = l.cnt := by
  simpa using (hr.chain.length_collect (f := Cell.num)).symm.trans (congrArg List.length hr.nums)

theorem fuel_le (hr : Rep l as rs) : as.length ≤ l.heap.length :=
  hr.chain.length_le hr.nodes_nodup

/-- Every cell the list owns is live. -/
theorem live (hr : Rep l as rs) : ∀ b ∈ l.heap.footprint as, (l.heap.get b).isSome := by
  intro b hb
  obtain ⟨a, ha, hb⟩ := List.mem_flatMap.1 hb
  obtain ⟨c, hc⟩ := hr.chain.read_of_mem ha
  rw [Heap.cellsOf_of_read hc] at hb
  rcases List.mem_cons.1 hb with rfl | hb
  · rw [Heap.get_of_read hc]
    rfl
  · obtain ⟨s, hs⟩ := Heap.get_str_of_mem (hr.strs a ha c hc) hb
    rw [hs]
    rfl

theorem lt_of_mem_footprint (hr : Rep l as rs) {b : Addr} (hb : b ∈ l.heap.footprint as) :
    b < l.heap.length :=
  let ⟨_, ho⟩ := Option.isSome_iff_exists.1 (hr.live b hb)
  Heap.lt_of_get ho

theorem create (h0 : Heap) : Rep (rulesCreate h0) [] [] :=
  ⟨.null, List.nodup_nil, rfl, rfl, (fun _ h => by cases h), fun _ h => by cases h⟩

theorem first (hr : Rep l as rs) : Rep (rulesFirst l) as rs :=
  ⟨hr.chain, hr.nodup, hr.nums, hr.rules, hr.strs, fun _ ha => hr.chain.head_mem ha⟩

/-- `rules_next` returns the node it moves the cursor to, which is `NULL` or on the list. -/
theorem next (hr : Rep l as rs) : ∃ l' r, rulesNext l = some (l', r) ∧ r = l'.cur ∧ Rep l' as rs := by
  cases hc : l.cur with
  | none => exact ⟨l, none, by simp [rulesNext, hc], hc.symm, hr⟩
  | some a =>
    obtain ⟨c, hrd⟩ := hr.chain.read_of_mem (hr.cur a hc)
    exact ⟨{ l with cur := c.next }, c.next, by simp [rulesNext, hc, hrd], rfl, hr.chain, hr.nodup,
      hr.nums, hr.rules, hr.strs, fun _ hb => hr.chain.next_mem (hr.cur a hc) hrd hb⟩

theorem footprint_append_cells (hr : Rep l as rs) (xs : Heap) :
    (l.heap ++ xs).footprint as = l.heap.footprint as :=
  Heap.footprint_congr fun a ha => by rw [Heap.read_append_old (hr.chain.lt_of_mem ha) xs]

/-- Cells appended to the heap change nothing on the list. -/
theorem append_cells (hr : Rep l as rs) (xs : Heap) : Rep { l with heap := l.heap ++ xs } as rs := by
  have hlt : ∀ a ∈ as, a < l.heap.length := fun _ ha => hr.chain.lt_of_mem ha
  refine ⟨hr.chain.append_cells xs, hr.footprint_append_cells xs ▸ hr.nodup,
    (Heap.collect_append_cells hlt xs).trans hr.nums, (Heap.collect_append_cells hlt xs).trans hr.rules,
    fun a ha c hc => ?_, hr.cur⟩
  rw [Heap.read_append_old (hlt a ha) xs] at hc
  rw [← hr.strs a ha c hc]
  exact List.map_congr_left fun b hb =>
    Heap.get_append_old (hr.lt_of_mem_footprint (Heap.mem_footprint_of_str ha hc hb)) xs

/-- Linking a node that owns cells outside the list, points at copies of its strings and is
numbered `cnt`, as `rules_append` does after `rules_last`: the list grows by it, and no cell
outside the list changes. -/
theorem link (hr : Rep l as rs) {a : Addr} {c : Cell} (hra : l.heap.read a = some c)
    (hnext : c.next = none) (hnum : c.num = l.cnt)
    (hown : (l.heap.footprint as ++ a :: c.strs).Nodup)
    (hstrs : c.strs.map l.heap.get = c.rule.strings.map fun s => some (.str s)) :
    ∃ l', ((rulesLast l).bind fun l₂ => (linkNode l₂ a).map fun l₃ =>
        ((0 : Int), { l₃ with cur := some a, cnt := l₃.cnt + 1 })) = some (0, l') ∧
      Rep l' (as ++ [a]) (rs ++ [c.rule]) ∧ l'.heap.length = l.heap.length ∧
      l'.heap.footprint (as ++ [a]) = l.heap.footprint as ++ a :: c.strs ∧
      ∀ x, x ∉ as → l'.heap.get x = l.heap.get x := by
  obtain ⟨hfp, hac, hdisj⟩ := List.nodup_append.1 hown
  have ha : a ∉ as := fun h => hdisj (Heap.mem_footprint h) (List.mem_cons_self a _)
  have hcells : l.heap.cellsOf a = a :: c.strs := Heap.cellsOf_of_read hra
  cases hh : l.head with
  | none =>
    have hc := hr.chain
    rw [hh] at hc
    obtain rfl := hc.eq_nil
    have h0 : l.cnt = 0 := by simpa using hr.nums.symm
    refine ⟨{ l with head := some a, cur := some a, cnt := l.cnt + 1 },
      by simp [rulesLast, linkNode, hh], ⟨.node hra (hnext ▸ .null), ?_, ?_, ?_, ?_, by simp⟩,
      rfl, by simp [Heap.footprint, hcells], fun _ _ => rfl⟩
    · simpa [Heap.footprint, hcells] using hac
    · simp [Heap.collect, hra, hnum, h0]
      rfl
    · simp [← hr.rules, Heap.collect, hra]
    · intro b hb c' hc'
      obtain rfl : b = a := by simpa using hb
      obtain rfl : c' = c := Option.some_inj.1 (hc'.symm.trans hra)
      exact hstrs
  | some hd =>
    have hc := hr.chain
    rw [hh] at hc
    obtain ⟨w, cw, hlast, hw, hrw, -⟩ := lastFrom_chain hc (Nat.le_refl _ |>.trans hr.fuel_le)
    have hwa : w ∈ as := List.mem_of_mem_getLast? hw
    have hwa' : w ≠ a := fun h => ha (h ▸ hwa)
    -- the heap with `a` linked after `w`
    have hread : ∀ b, ((l.heap.write w { cw with next := some a }).read b).map
        (fun c => (c.rule, c.strs)) = (l.heap.read b).map fun c => (c.rule, c.strs) :=
      Heap.read_write_next (f := fun c => (c.rule, c.strs)) (fun _ _ => rfl) hrw (some a)
    have hget : ∀ x, x ≠ w → Heap.get (l.heap.write w { cw with next := some a }) x = l.heap.get x :=
      fun x hx => Heap.get_write_ne (Ne.symm hx) _
    have hfp' : (l.heap.write w { cw with next := some a }).footprint as = l.heap.footprint as :=
      Heap.footprint_congr fun b _ => Heap.read_write_next (f := Cell.strs) (fun _ _ => rfl) hrw _ b
    have hra' : (l.heap.write w { cw with next := some a }).read a = some c := by
      rw [Heap.read_write_ne hwa', hra]
    have hfpa : (l.heap.write w { cw with next := some a }).footprint (as ++ [a]) =
        l.heap.footprint as ++ a :: c.strs := by
      rw [Heap.footprint_append, hfp', Heap.footprint_cons, Heap.footprint_nil, List.append_nil,
        Heap.cellsOf_of_read hra']
    have hcol : ∀ {α : Type} (f : Cell → α), (∀ c x, f { c with next := x } = f c) →
        (l.heap.write w { cw with next := some a }).collect f (as ++ [a]) =
          l.heap.collect f as ++ [f c] := fun f hf => by
      rw [Heap.collect_append, Heap.collect_congr fun b _ => Heap.read_write_next hf hrw _ b,
        Heap.collect_cons hra', Heap.collect_nil]
    refine ⟨{ l with heap := l.heap.write w { cw with next := some a }, cur := some a,
                     cnt := l.cnt + 1 }, by simp [rulesLast, linkNode, hh, hlast, hrw],
      ⟨hh ▸ hc.snoc hr.nodes_nodup hw hrw hra hnext ha, hfpa ▸ hown, ?_, ?_, ?_, by simp⟩, by simp, hfpa,
      fun x hx => hget x fun h => hx (h ▸ hwa)⟩
    · rw [hcol Cell.num fun _ _ => rfl, hr.nums, hnum, List.range_succ]
    · rw [hcol Cell.rule fun _ _ => rfl, hr.rules]
    · intro b hb c' hc'
      rcases List.mem_append.1 hb with hb | hb
      · obtain ⟨c₀, h₀⟩ := hr.chain.read_of_mem hb
        have hrs := hread b
        rw [hc', h₀, Option.map_some', Option.map_some', Option.some_inj, Prod.mk.injEq] at hrs
        dsimp only at hrs ⊢
        rw [hrs.1, hrs.2, ← hr.strs b hb c₀ h₀]
        exact List.map_congr_left fun x hx =>
          hget x fun h => Heap.str_not_node hr.nodup hb h₀ hx (h ▸ hwa)
      · obtain rfl : b = a := List.mem_singleton.1 hb
        obtain rfl : c' = c := Option.some_inj.1 (hc'.symm.trans hra')
        dsimp only
        rw [← hstrs]
        exact List.map_congr_left fun x hx =>
          hget x fun h => hdisj (Heap.mem_footprint (h ▸ hwa)) (List.mem_cons_of_mem _ hx)

/-- An accepted line is linked last, as the node numbered `cnt`, the copies of its strings in
the cells after its own. -/
theorem append {b : String} {lineno : Nat} {n : LNode} {log : List Msg} (hr : Rep l as rs)
    (hn : nvSplit D b lineno = .ret 0 n log) :
    ∃ l', rulesAppend D l (some b) lineno = some (0, l') ∧
      Rep l' (as ++ [l.heap.length]) (rs ++ [n]) ∧ HeapStep l as l' (as ++ [l.heap.length]) [] := by
  have hlt : ∀ x ∈ l.heap.footprint as, x < l.heap.length := fun _ hx => hr.lt_of_mem_footprint hx
  -- the node in the next cell, the copies of its strings after it
  let ps := (List.range n.strings.length).map (l.heap.length + 1 + ·)
  let copies : Heap := n.strings.map fun s => some (.str s)
  let c : Cell := ⟨n, ps, l.cnt, none⟩
  have hr₁ := hr.append_cells (some (.node c) :: copies)
  have hlen₁ : (l.heap ++ some (.node c) :: copies).length = l.heap.length + 1 + n.strings.length := by
    simp [copies]
    omega
  have hra : Heap.read (l.heap ++ some (.node c) :: copies) l.heap.length = some c :=
    Heap.read_of_get (by simpa using Heap.get_append_new (h := l.heap) (some (.node c) :: copies) 0)
  have hps : ps.map (Heap.get (l.heap ++ some (.node c) :: copies)) = copies := by
    have h := Heap.get_copies (h := l.heap) (some (.node c)) copies
    rwa [show copies.length = n.strings.length from List.length_map ..] at h
  have hown : (l.heap.footprint as ++ l.heap.length :: ps).Nodup := by
    refine List.nodup_append.2 ⟨hr.nodup, List.nodup_cons.2 ⟨fun h => ?_, nodup_copies _ _⟩, ?_⟩
    · exact absurd (mem_copies.1 h).1 (lt_irrefl _)
    · intro x hx hx'
      rcases List.mem_cons.1 hx' with rfl | hx'
      · exact lt_irrefl _ (hlt _ hx)
      · exact absurd (hlt x hx) (Nat.not_lt.2 (mem_copies.1 hx').1.le)
  obtain ⟨l', hlink, hr', hlen', hfp', hget'⟩ := hr₁.link hra rfl rfl
    (by rw [hr.footprint_append_cells]; exact hown) hps
  rw [hr.footprint_append_cells] at hfp'
  have hnode : ∀ x ∈ as, x < l.heap.length := fun x hx => hlt x (Heap.mem_footprint hx)
  refine ⟨l', by simpa [rulesAppend, hn] using hlink, hr', ⟨by rw [hlen', hlen₁]; omega,
    fun x hx hx' => ?_, fun x hx hx' => absurd (hfp' ▸ List.mem_append_left _ hx) hx',
    fun x hx => ?_, fun x hx hx' _ => ?_, fun _ hx => absurd hx (List.not_mem_nil _)⟩⟩
  · rw [hget' x fun h => hx' (Heap.mem_footprint h), Heap.get_append_old hx]
  · rw [hfp'] at hx
    rcases List.mem_append.1 hx with hx | hx
    · exact .inl hx
    · rcases List.mem_cons.1 hx with rfl | hx
      · exact .inr le_rfl
      · exact .inr (mem_copies.1 hx).1.le
  · rw [hfp'] at hx'
    rw [hget' x fun h => absurd (hnode x h) (Nat.not_lt.2 hx), Heap.get_of_le]
    rw [hlen₁]
    by_contra hlt'
    rcases Nat.eq_or_lt_of_le hx with rfl | hgt
    · exact hx' (List.mem_append_right _ (List.mem_cons_self _ _))
    · exact hx' (List.mem_append_right _ (List.mem_cons_of_mem _ (mem_copies.2 ⟨hgt, by omega⟩)))

/-- A line `nv_split` refuses or skips: the node's cell is freed at once, and the copies of
the strings it points to stay, owned by nothing. -/
theorem fail {b : String} {lineno : Nat} {rc : Int} {n : LNode} {log : List Msg}
    (hr : Rep l as rs) (hn : nvSplit D b lineno = .ret rc n log) (hrc : rc ≠ 0) :
    ∃ l', rulesAppend D l (some b) lineno = some (if rc < 0 then 0 else 1, l') ∧ Rep l' as rs ∧
      HeapStep l as l' as ((List.range n.strings.length).map (l.heap.length + 1 + ·)) ∧
      ((List.range n.strings.length).map (l.heap.length + 1 + ·)).map l'.heap.get =
        n.strings.map fun s => some (.str s) := by
  have hlt : ∀ x ∈ l.heap.footprint as, x < l.heap.length := fun _ hx => hr.lt_of_mem_footprint hx
  have hfp := hr.footprint_append_cells (none :: n.strings.map fun s => some (.str s))
  refine ⟨_, by simp [rulesAppend, hn, hrc], hr.append_cells _, ⟨by simp, fun x hx _ =>
    Heap.get_append_old hx _, fun _ hx hx' => absurd (hfp ▸ hx) hx', fun _ hx => .inl (hfp ▸ hx),
    fun x hx hx' hx'' => ?_, fun x hx => ⟨(mem_copies.1 hx).1.le, fun h =>
      absurd (hlt x (hfp ▸ h)) (Nat.not_lt.2 (mem_copies.1 hx).1.le)⟩⟩,
    by simpa using Heap.get_copies (h := l.heap) none (n.strings.map fun s => some (.str s))⟩
  obtain ⟨i, rfl⟩ := Nat.exists_eq_add_of_le hx
  rcases i with _ | i
  · simpa using Heap.get_append_new (h := l.heap) (none :: n.strings.map fun s => some (.str s)) 0
  · rw [Heap.get_append_new]
    refine Heap.get_of_le ?_
    by_contra hi
    exact hx'' (mem_copies.2 ⟨by omega, by simp at hi; omega⟩)

/-- `rules_unsupport_audit` clears the `AUDIT` bit of every rule of the list, in a build
with `USE_AUDIT`, logs its warning and notice when one of them had it, and writes only the
nodes of the list. -/
theorem unsupportAudit (hr : Rep l as rs) (USE_AUDIT : Bool) :
    ∃ l', rulesUnsupportAudit USE_AUDIT l = some (l',
        if USE_AUDIT ∧ rs.any (fun r => r.d &&& AUDIT != 0) then [.auditUnsupported, .convertingRules]
        else []) ∧
      Rep l' as (if USE_AUDIT then rs.map LNode.clearAudit else rs) ∧ HeapStep l as l' as [] := by
  cases USE_AUDIT with
  | false => exact ⟨l, rfl, by simpa using hr, .of_heap_eq rfl⟩
  | true =>
    obtain ⟨h', hu, hlen, hnode, hother⟩ := unsupportFrom_chain hr.chain hr.nodes_nodup hr.fuel_le
    have hfp : h'.footprint as = l.heap.footprint as :=
      Heap.footprint_congr fun a ha => by rw [hnode a ha, Option.map_map]; rfl
    refine ⟨{ l with heap := h' }, by simp [rulesUnsupportAudit, hu, hr.rules],
      ⟨hr.chain.frame fun a ha => by rw [hnode a ha, Option.map_map]; rfl, hfp ▸ hr.nodup,
        (Heap.collect_map_read hnode).trans hr.nums, ?_, fun a ha c' hc' => ?_, hr.cur⟩,
      ⟨hlen.ge, fun b _ hb => hother b fun h => hb (Heap.mem_footprint h),
        fun _ hb hb' => absurd (hfp ▸ hb) hb', fun _ hb => .inl (hfp ▸ hb),
        fun b hb _ _ => Heap.get_of_le (hlen ▸ hb), fun _ hb => absurd hb (List.not_mem_nil _)⟩⟩
    · rw [Heap.collect_map_read hnode, ← hr.rules, if_pos rfl, Heap.collect, Heap.collect,
        List.map_filterMap]
      simp [Option.map_map, Function.comp_def, Cell.clearAudit]
    · obtain ⟨c, hc⟩ := hr.chain.read_of_mem ha
      rw [hnode a ha, hc, Option.map_some', Option.some_inj] at hc'
      subst hc'
      show c.strs.map h'.get = c.rule.strings.map _
      rw [← hr.strs a ha c hc]
      exact List.map_congr_left fun x hx => hother x (Heap.str_not_node hr.nodup ha hc hx)

/-- `rules_clear` frees exactly the cells the list owns, each node and the strings it points
to, and leaves the list as `rules_create` does. -/
theorem clear (hr : Rep l as rs) :
    ∃ h', rulesClear l = some (rulesCreate h') ∧ h'.length = l.heap.length ∧
      ∀ b, h'.get b = if b ∈ l.heap.footprint as then none else l.heap.get b := by
  obtain ⟨h', hc, hlen, hg⟩ := clearFrom_chain hr.chain hr.nodup hr.live hr.fuel_le
  exact ⟨h', by simp [rulesClear, rulesCreate, hc], hlen, hg⟩

/-- One call from a represented list: it ends the process or writes past a field array, or
it returns a list that represents the rules `Op.abs` gives, having touched memory only as
`HeapStep` allows and leaked the strings `Op.leaks` names. -/
theorem step (hr : Rep l as rs) (D : NameTables) (USE_AUDIT : Bool) (op : Op) :
    (op.step D USE_AUDIT l = none ∧ (op.Exits D ∨ op.Overruns D)) ∨
      ∃ l' as' lk, op.step D USE_AUDIT l = some l' ∧ Rep l' as' (op.abs D USE_AUDIT rs) ∧
        HeapStep l as l' as' lk ∧ lk.map l'.heap.get = (op.leaks D).map fun s => some (.str s) := by
  cases op with
  | append buf lineno =>
    cases buf with
    | none => exact .inr ⟨l, as, [], rfl, hr, .of_heap_eq rfl, rfl⟩
    | some b =>
      cases hn : nvSplit D b lineno with
      | exit log => exact .inl ⟨by simp [Op.step, rulesAppend, hn], .inl ⟨log, hn⟩⟩
      | overrun log => exact .inl ⟨by simp [Op.step, rulesAppend, hn], .inr ⟨log, hn⟩⟩
      | ret rc n log =>
        by_cases hrc : rc = 0
        · subst hrc
          obtain ⟨l', happ, hr', hst⟩ := hr.append hn
          exact .inr ⟨l', _, [], by simp [Op.step, happ], by simpa [Op.abs, hn] using hr', hst,
            by simp [Op.leaks, hn]⟩
        · obtain ⟨l', happ, hr', hst, hlk⟩ := hr.fail hn hrc
          exact .inr ⟨l', as, _, by simp [Op.step, happ], by simpa [Op.abs, hn, hrc] using hr', hst,
            by simpa [Op.leaks, hn, hrc] using hlk⟩
  | first => exact .inr ⟨_, as, [], rfl, hr.first, .of_heap_eq rfl, rfl⟩
  | next =>
    obtain ⟨l', r, hn, -, hr'⟩ := hr.next
    exact .inr ⟨l', as, [], by simp [Op.step, hn], hr', .of_heap_eq (rulesNext_heap hn), rfl⟩
  | unsupportAudit =>
    obtain ⟨l', hu, hr', hst⟩ := hr.unsupportAudit USE_AUDIT
    exact .inr ⟨l', as, [], by simp [Op.step, hu], hr', hst, rfl⟩
  | clear =>
    obtain ⟨h', hc, hlen, hg⟩ := hr.clear
    refine .inr ⟨_, [], [], by simp [Op.step, hc], create h', ⟨hlen.ge, fun b _ hb => ?_,
      fun b hb _ => ?_, fun _ hb => absurd hb (List.not_mem_nil _), fun b hb _ _ => ?_,
      fun _ hb => absurd hb (List.not_mem_nil _)⟩, rfl⟩
    · exact (hg b).trans (if_neg hb)
    · exact (hg b).trans (if_pos hb)
    · exact Heap.get_of_le (hlen ▸ hb)

/-- A sequence of calls from a represented list stops at an append that ends the process or
writes past a field array, or returns a list that represents the rules `Op.abs` gives along
it. -/
theorem run (hr : Rep l as rs) (D : NameTables) (USE_AUDIT : Bool) (ops : List Op) :
    (Op.run D USE_AUDIT l ops = none ∧ ∃ op ∈ ops, op.Exits D ∨ op.Overruns D) ∨
      ∃ l' as', Op.run D USE_AUDIT l ops = some l' ∧
        Rep l' as' (ops.foldl (Op.abs D USE_AUDIT) rs) := by
  induction ops generalizing l as rs with
  | nil => exact .inr ⟨l, as, rfl, hr⟩
  | cons op ops ih =>
    rcases hr.step D USE_AUDIT op with ⟨hs, hx⟩ | ⟨l', as', -, hs, hr', -⟩
    · exact .inl ⟨by simp [Op.run, hs], op, List.mem_cons_self _ _, hx⟩
    · rcases ih hr' with ⟨hrun, op', hop', hx⟩ | ⟨l'', as'', hrun, hr''⟩
      · exact .inl ⟨by simp [Op.run, hs, hrun], op', List.mem_cons_of_mem _ hop', hx⟩
      · exact .inr ⟨l'', as'', by simp [Op.run, hs, hrun], hr''⟩

/-- Every list a sequence of calls from `rules_create` returns is represented. -/
theorem of_run {D : NameTables} {USE_AUDIT : Bool} {h0 : Heap} {ops : List Op}
    (hl : Op.run D USE_AUDIT (rulesCreate h0) ops = some l) :
    ∃ as, Rep l as (Op.absRun D USE_AUDIT ops) := by
  rcases (create h0).run D USE_AUDIT ops with ⟨hn, -⟩ | ⟨l', as, hrun, hr⟩
  · simp [hn] at hl
  · exact ⟨as, Option.some_inj.1 (hrun.symm.trans hl) ▸ hr⟩

end Rep

/-- A line `nv_split` refuses or skips leaves `head`, the cursor, `cnt` and every cell of
the heap as they were; the only change is the cells `rules_append` allocated. -/
theorem rulesAppend_fail {D : NameTables} {l : LList} {b : String} {lineno : Nat} {rc : Int}
    {n : LNode} {log : List Msg} (hn : nvSplit D b lineno = .ret rc n log) (hrc : rc ≠ 0) :
    ∃ l', rulesAppend D l (some b) lineno = some (if rc < 0 then 0 else 1, l') ∧
      l'.head = l.head ∧ l'.cur = l.cur ∧ l'.cnt = l.cnt ∧
      ∀ a < l.heap.length, l'.heap.get a = l.heap.get a :=
  ⟨{ l with heap := l.heap ++ none :: n.strings.map fun s => some (.str s) },
    by simp [rulesAppend, hn, hrc], rfl, rfl, rfl, fun _ ha => Heap.get_append_old ha _⟩

/-- **The store refines a list of rules, up to a line too long for the arrays.** From
`rules_create`, every sequence of calls either ends in a list that holds, in a finite chain
without a repeated node, `cnt` nodes numbered `0, 1, ...` with the rules `Op.absRun` gives,
which `rules_first` and `cnt` calls of `rules_next` visit in order before the cursor is
`NULL`; or it stops at an append whose line ends the process or makes `nv_split` write past
a field array. A `NULL`, refused or skipped line leaves the list and its cells as they were,
and clearing `AUDIT` changes no other bit of a decision and no other field. But a line of
more than `MAX_FIELDS` subject fields, which `rules.c` accepts with its fields stored past
`s`, stops every run that appends it. -/
theorem rules_store_refines (D : NameTables) (USE_AUDIT : Bool) (h0 : Heap) (ops : List Op) :
    (∀ l, Op.run D USE_AUDIT (rulesCreate h0) ops = some l →
      ∃ as, Rep l as (Op.absRun D USE_AUDIT ops) ∧ as.length = l.cnt ∧
        traverse l.cnt (rulesFirst l) = some as) ∧
    (Op.run D USE_AUDIT (rulesCreate h0) ops = none → ∃ op ∈ ops, op.Exits D ∨ op.Overruns D) ∧
    (∀ l lineno, rulesAppend D l none lineno = some (1, l)) ∧
    (∀ l b lineno rc n log, nvSplit D b lineno = .ret rc n log → rc ≠ 0 →
      ∃ l', rulesAppend D l (some b) lineno = some (if rc < 0 then 0 else 1, l') ∧
        l'.head = l.head ∧ l'.cur = l.cur ∧ l'.cnt = l.cnt ∧
        ∀ a < l.heap.length, l'.heap.get a = l.heap.get a) ∧
    (∀ r : LNode, r.clearAudit.d &&& ~~~AUDIT = r.d &&& ~~~AUDIT ∧ r.clearAudit.d &&& AUDIT = 0 ∧
      { r.clearAudit with d := r.d } = r) ∧
    ∀ k, MAX_FIELDS < k → ∀ l, rulesAppend daemonTables l
      (some (unwords ("allow" :: (List.replicate k "uid=0" ++ ["path=/x"])))) 1 = none := by
  refine ⟨fun l hl => ?_, fun hl => ?_, fun _ _ => rfl, fun _ _ _ _ _ _ hn hrc => rulesAppend_fail hn hrc,
    LNode.clearAudit_spec, fun k hk l => ?_⟩
  · obtain ⟨as, hr⟩ := Rep.of_run hl
    exact ⟨as, hr, hr.length_eq, traverse_chain (l := rulesFirst l) rfl hr.chain hr.length_eq.le⟩
  · rcases (Rep.create h0).run D USE_AUDIT ops with ⟨-, hx⟩ | ⟨l', as, hrun, -⟩
    · exact hx
    · simp [hrun] at hl
  · simp [rulesAppend, nvSplit_uid_line_overrun k hk]

/-- **`rules_clear` frees every node and its strings.** On a store built by any calls from
`rules_create` that return, `rules_clear` returns, frees exactly the cells the list owns, each
node and the copies of the strings its fields point to, leaves every other cell as it was,
and leaves the list as `rules_create` does. -/
theorem rulesClear_frees_nodes (D : NameTables) (USE_AUDIT : Bool) (h0 : Heap) (ops : List Op)
    (l : LList) (hl : Op.run D USE_AUDIT (rulesCreate h0) ops = some l) :
    ∃ as h', Rep l as (Op.absRun D USE_AUDIT ops) ∧ rulesClear l = some (rulesCreate h') ∧
      ∀ b, h'.get b = if b ∈ l.heap.footprint as then none else l.heap.get b := by
  obtain ⟨as, hr⟩ := Rep.of_run hl
  obtain ⟨h', hc, -, hg⟩ := hr.clear
  exact ⟨as, h', hr, hc, hg⟩

/-- The store of one rule, cleared: its node and the copy of its path are freed. -/
theorem rulesClear_frees_nodes_one_rule :
    let ops : List Op := [.append (some "allow perm=any uid=0 : path=/x") 1]
    let r : LNode := { d := ALLOW, a := .anyAcc, s := [⟨.uid, .val 0⟩], o := [⟨.path, "/x", 0⟩],
                       format := .ruleFmtColon }
    let l : LList := ⟨[some (.node ⟨r, [1], 0, none⟩), some (.str "/x")], some 0, some 0, 1⟩
    Op.run daemonTables false (rulesCreate []) ops = some l ∧
      ∃ as h', Rep l as (Op.absRun daemonTables false ops) ∧ rulesClear l = some (rulesCreate h') ∧
        ∀ b, h'.get b = if b ∈ l.heap.footprint as then none else l.heap.get b :=
  ⟨by decide, rulesClear_frees_nodes daemonTables false [] _ _ (by decide)⟩

/-- **`rules_unsupport_audit` warns once for the store.** On a store built by any calls from
`rules_create`, `rules_unsupport_audit` returns; it logs its warning and its notice exactly
when the build has `USE_AUDIT` and some rule of the store has the `AUDIT` bit; and the store
then holds the same rules with the bit cleared. -/
theorem rulesUnsupportAudit_warns (D : NameTables) (USE_AUDIT : Bool) (h0 : Heap)
    (ops : List Op) (l : LList) (hl : Op.run D USE_AUDIT (rulesCreate h0) ops = some l) :
    ∃ l' as, rulesUnsupportAudit USE_AUDIT l = some (l',
        if USE_AUDIT ∧ (Op.absRun D USE_AUDIT ops).any (fun r => r.d &&& AUDIT != 0) then
          [.auditUnsupported, .convertingRules] else []) ∧
      Rep l' as (if USE_AUDIT then (Op.absRun D USE_AUDIT ops).map LNode.clearAudit
        else Op.absRun D USE_AUDIT ops) := by
  obtain ⟨as, hr⟩ := Rep.of_run hl
  obtain ⟨l', hu, hr', -⟩ := hr.unsupportAudit USE_AUDIT
  exact ⟨l', as, hu, hr'⟩

/-- A store holding the rule of `allow_audit perm=any uid=0 : path=/x`, in a build with
`USE_AUDIT`: the warning and the notice are logged. -/
theorem rulesUnsupportAudit_warns_audit_rule :
    let ops : List Op := [.append (some "allow_audit perm=any uid=0 : path=/x") 1]
    let r : LNode := { d := ALLOW ||| AUDIT, a := .anyAcc, s := [⟨.uid, .val 0⟩],
                       o := [⟨.path, "/x", 0⟩], format := .ruleFmtColon }
    let l : LList := ⟨[some (.node ⟨r, [1], 0, none⟩), some (.str "/x")], some 0, some 0, 1⟩
    Op.run daemonTables true (rulesCreate []) ops = some l ∧
    ∃ l' as, rulesUnsupportAudit true l = some (l',
        if true ∧ (Op.absRun daemonTables true ops).any (fun r => r.d &&& AUDIT != 0) then
          [.auditUnsupported, .convertingRules] else []) ∧
      Rep l' as (if true then (Op.absRun daemonTables true ops).map LNode.clearAudit
        else Op.absRun daemonTables true ops) :=
  ⟨by decide, rulesUnsupportAudit_warns daemonTables true [] _ _ (by decide)⟩

end Fapolicyd
