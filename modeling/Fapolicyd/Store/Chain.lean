import Mathlib.Data.List.Nodup
import Fapolicyd.Store.LList

/-!
# Chains of nodes

The walks over the rule list, `rules_last`, `rules_next` and the loops of
`rules_unsupport_audit` and `rules_clear`, all follow `next` from a node until
`NULL`. This module says what such a walk meets and what each loop does along it.

## The model

`Chain h p as` says that following `next` from `p` visits the nodes at the
addresses `as`, in order, and then reaches `NULL`. A chain is finite by
construction; with `as.Nodup` it also visits no node twice. `Heap.collect f h as`
reads the field `f` of each node of the chain, and `Heap.footprint h as` lists the cells
its nodes own: each node's, then those of the node's strings.

## What is proved

A chain without a repeated node is no longer than the heap, so the fuel the
model gives each loop, the heap's size, never runs out on it. On such a chain
`rules_last` finds the last node (`lastFrom_chain`), the loop of
`rules_unsupport_audit` clears the `AUDIT` bit in exactly its nodes and warns
when one had it (`unsupportFrom_chain`), the loop of `rules_clear` frees exactly
the cells its nodes own, each node and the strings of its fields, when no two
of them are one cell (`clearFrom_chain`), and the cursor moved by `rules_next`
visits its nodes in order and then stands on `NULL` (`traverse_chain`). A write
that keeps the links keeps the chain (`Chain.frame`), and linking a fresh node
after the last one extends it (`Chain.snoc`).
-/

namespace Fapolicyd

/-- Following `next` from `p` visits the nodes at the addresses `as`, in order, and then
reaches `NULL`. -/
inductive Chain (h : Heap) : Option Addr → List Addr → Prop where
  | null : Chain h none []
  | node {a : Addr} {c : Cell} {as : List Addr} :
      h.read a = some c → Chain h c.next as → Chain h (some a) (a :: as)

namespace Chain

variable {h h' : Heap} {p : Option Addr} {as : List Addr}

theorem eq_nil (hc : Chain h none as) : as = [] := by
  cases hc; rfl

theorem head_mem (hc : Chain h p as) {a : Addr} (hp : p = some a) : a ∈ as := by
  subst hp; cases hc; exact List.mem_cons_self _ _

theorem read_of_mem (hc : Chain h p as) {a : Addr} (ha : a ∈ as) : ∃ c, h.read a = some c := by
  induction hc with
  | null => cases ha
  | node hr _ ih =>
    rcases List.mem_cons.1 ha with rfl | ha
    · exact ⟨_, hr⟩
    · exact ih ha

theorem lt_of_mem (hc : Chain h p as) {a : Addr} (ha : a ∈ as) : a < h.length :=
  let ⟨_, hr⟩ := hc.read_of_mem ha
  Heap.lt_of_read hr

/-- A chain without a repeated node is no longer than the heap. -/
theorem length_le (hc : Chain h p as) (hnd : as.Nodup) : as.length ≤ h.length := by
  simpa using (List.subperm_of_subset hnd fun a ha => List.mem_range.2 (hc.lt_of_mem ha)).length_le

/-- The successor of a node of the chain is on the chain. -/
theorem next_mem (hc : Chain h p as) {a b : Addr} {c : Cell} (ha : a ∈ as)
    (hr : h.read a = some c) (hb : c.next = some b) : b ∈ as := by
  induction hc with
  | null => cases ha
  | node hr' hc' ih =>
    rcases List.mem_cons.1 ha with rfl | ha
    · rw [hr, Option.some_inj] at hr'
      subst hr'
      rw [hb] at hc'
      exact List.mem_cons_of_mem _ (hc'.head_mem rfl)
    · exact List.mem_cons_of_mem _ (ih ha)

/-- A heap that keeps the links of the chain's nodes keeps the chain. -/
theorem frame (hc : Chain h p as)
    (hf : ∀ a ∈ as, (h'.read a).map Cell.next = (h.read a).map Cell.next) : Chain h' p as := by
  induction hc with
  | null => exact .null
  | node hr _ ih =>
    have hn := hf _ (List.mem_cons_self _ _)
    rw [hr] at hn
    obtain ⟨c', hr', hn⟩ := Option.map_eq_some'.1 hn
    exact .node hr' (hn ▸ ih fun b hb => hf b (List.mem_cons_of_mem _ hb))

/-- Appending cells to the heap keeps the chain. -/
theorem append_cells (hc : Chain h p as) (xs : Heap) : Chain (h ++ xs) p as :=
  hc.frame fun _ ha => by rw [Heap.read_append_old (hc.lt_of_mem ha)]

/-- Linking the node at `a` after the last node `w` of the chain extends it by `a`. -/
theorem snoc (hc : Chain h p as) (hnd : as.Nodup) {w a : Addr} {c c' : Cell}
    (hw : as.getLast? = some w) (hrw : h.read w = some c) (hra : h.read a = some c')
    (hna : c'.next = none) (ha : a ∉ as) :
    Chain (h.write w { c with next := some a }) p (as ++ [a]) := by
  have hwa : w ≠ a := fun hwa => ha (hwa ▸ List.mem_of_getLast?_eq_some hw)
  induction hc with
  | null => cases hw
  | @node b cb rest hr hc' ih =>
    have hb : b ∉ rest := (List.nodup_cons.1 hnd).1
    cases rest with
    | nil =>
      obtain rfl : b = w := Option.some_inj.1 hw
      obtain rfl : cb = c := Option.some_inj.1 (hr.symm.trans hrw)
      refine .node (Heap.read_write_self (Heap.lt_of_read hr) _) (.node ?_ (hna ▸ Chain.null))
      rwa [Heap.read_write_ne hwa]
    | cons b' rest =>
      have hbw : b ≠ w := fun hbw => hb (hbw ▸ List.mem_of_getLast?_eq_some hw)
      rw [List.getLast?_cons_cons] at hw
      exact .node (by rwa [Heap.read_write_ne hbw.symm]) (ih (List.nodup_cons.1 hnd).2 hw
        (fun h' => ha (List.mem_cons_of_mem _ h')))

end Chain

/-- What the nodes at `as` hold in the field `f`, in order. -/
def Heap.collect {α : Type} (f : Cell → α) (h : Heap) (as : List Addr) : List α :=
  as.filterMap fun a => (h.read a).map f

section Collect

variable {α : Type} {f : Cell → α} {h h' : Heap} {as : List Addr}

theorem Heap.collect_congr (hf : ∀ a ∈ as, (h'.read a).map f = (h.read a).map f) :
    h'.collect f as = h.collect f as :=
  List.filterMap_congr hf

theorem Heap.collect_cons {a : Addr} {c : Cell} (hr : h.read a = some c) :
    h.collect f (a :: as) = f c :: h.collect f as := by
  simp [Heap.collect, hr]

@[simp] theorem Heap.collect_nil : h.collect f [] = [] := rfl

theorem Heap.collect_append (bs : List Addr) :
    h.collect f (as ++ bs) = h.collect f as ++ h.collect f bs :=
  List.filterMap_append ..

theorem Chain.length_collect {p : Option Addr} (hc : Chain h p as) :
    (h.collect f as).length = as.length := by
  induction hc with
  | null => rfl
  | node hr _ ih => simp [Heap.collect_cons hr, ih]

end Collect

/-- The cells the node at `a` owns: its own, then those of its strings. -/
def Heap.cellsOf (h : Heap) (a : Addr) : List Addr := a :: ((h.read a).map Cell.strs).getD []

/-- The cells the nodes at `as` own, node by node. -/
def Heap.footprint (h : Heap) (as : List Addr) : List Addr := as.flatMap h.cellsOf

section Footprint

variable {h h' : Heap} {as : List Addr}

theorem Heap.cellsOf_of_read {a : Addr} {c : Cell} (hr : h.read a = some c) :
    h.cellsOf a = a :: c.strs := by
  simp [Heap.cellsOf, hr]

@[simp] theorem Heap.footprint_nil : h.footprint [] = [] := rfl

theorem Heap.footprint_cons (a : Addr) : h.footprint (a :: as) = h.cellsOf a ++ h.footprint as :=
  List.flatMap_cons ..

theorem Heap.footprint_append (bs : List Addr) :
    h.footprint (as ++ bs) = h.footprint as ++ h.footprint bs :=
  List.flatMap_append ..

theorem Heap.mem_footprint {a : Addr} (ha : a ∈ as) : a ∈ h.footprint as :=
  List.mem_flatMap.2 ⟨a, ha, List.mem_cons_self _ _⟩

theorem Heap.mem_footprint_of_str {a b : Addr} {c : Cell} (ha : a ∈ as) (hr : h.read a = some c)
    (hb : b ∈ c.strs) : b ∈ h.footprint as :=
  List.mem_flatMap.2 ⟨a, ha, by rw [Heap.cellsOf_of_read hr]; exact List.mem_cons_of_mem _ hb⟩

/-- The footprint reads only the string pointers of the nodes. -/
theorem Heap.footprint_congr (hr : ∀ a ∈ as, (h'.read a).map Cell.strs = (h.read a).map Cell.strs) :
    h'.footprint as = h.footprint as :=
  List.flatMap_congr fun a ha => by rw [Heap.cellsOf, Heap.cellsOf, hr a ha]

/-- Nodes whose footprint has no repeated cell are distinct. -/
theorem Heap.nodup_of_footprint (hnd : (h.footprint as).Nodup) : as.Nodup :=
  (List.nodup_flatMap.1 hnd).2.imp fun {a _} hab heq => by
    subst heq
    exact (hab : List.Disjoint _ _) (List.mem_cons_self a _) (List.mem_cons_self a _)

/-- In a footprint without a repeated cell, each cell is owned by one node. -/
theorem Heap.footprint_owner (hnd : (h.footprint as).Nodup) {a b x : Addr} (ha : a ∈ as)
    (hb : b ∈ as) (hxa : x ∈ h.cellsOf a) (hxb : x ∈ h.cellsOf b) : a = b := by
  by_contra hab
  exact (List.nodup_flatMap.1 hnd).2.forall (fun _ _ h => List.Disjoint.symm h) ha hb hab hxa hxb

/-- In a footprint without a repeated cell, no string of a node is a node. -/
theorem Heap.str_not_node (hnd : (h.footprint as).Nodup) {a x : Addr} {c : Cell} (ha : a ∈ as)
    (hr : h.read a = some c) (hx : x ∈ c.strs) : x ∉ as := fun hxn => by
  have hxa : x ∈ h.cellsOf a := by rw [Heap.cellsOf_of_read hr]; exact List.mem_cons_of_mem _ hx
  obtain rfl := Heap.footprint_owner hnd ha hxn hxa (List.mem_cons_self x _)
  have hnd' := (List.nodup_flatMap.1 hnd).1 _ ha
  rw [Heap.cellsOf_of_read hr] at hnd'
  exact (List.nodup_cons.1 hnd').1 hx

end Footprint

/-! ### The loops over a chain -/

section Loops

variable {h : Heap} {as : List Addr}

/-- `rules_last` reaches the last node of a chain, whose `next` is `NULL`, within as many
steps as the chain has nodes. -/
theorem lastFrom_chain {a : Addr} {fuel : Nat} (hc : Chain h (some a) as)
    (hf : as.length ≤ fuel) :
    ∃ w c, lastFrom h fuel a = some w ∧ as.getLast? = some w ∧ h.read w = some c ∧
      c.next = none := by
  induction as generalizing a fuel with
  | nil => cases hc
  | cons b rest ih =>
    obtain ⟨f, rfl⟩ : ∃ f, fuel = f + 1 := ⟨fuel - 1, by simp at hf; omega⟩
    cases hc with
    | @node _ c _ hr hc' =>
      simp only [lastFrom, hr, Option.some_bind]
      cases hn : c.next with
      | none =>
        rw [hn] at hc'
        obtain rfl := hc'.eq_nil
        exact ⟨b, c, rfl, rfl, hr, hn⟩
      | some b' =>
        rw [hn] at hc'
        obtain ⟨w, c', h1, h2, h3, h4⟩ := ih hc' (by simpa using hf)
        obtain ⟨r, rs, rfl⟩ := List.exists_cons_of_ne_nil (List.ne_nil_of_mem (hc'.head_mem rfl))
        exact ⟨w, c', h1, by rwa [List.getLast?_cons_cons], h3, h4⟩

/-- The loop of `rules_unsupport_audit` clears the `AUDIT` bit in exactly the nodes of the
chain, and warns when one of their rules had it. -/
theorem unsupportFrom_chain {p : Option Addr} {fuel : Nat} (hc : Chain h p as) (hnd : as.Nodup)
    (hf : as.length ≤ fuel) :
    ∃ h', unsupportFrom h fuel p = some (h', (h.collect Cell.rule as).any fun r => r.d &&& AUDIT != 0) ∧
      h'.length = h.length ∧ (∀ b ∈ as, h'.read b = (h.read b).map Cell.clearAudit) ∧
      ∀ b, b ∉ as → h'.get b = h.get b := by
  induction as generalizing h p fuel with
  | nil =>
    cases hc
    exact ⟨h, by simp [unsupportFrom], rfl, by simp, fun _ _ => rfl⟩
  | cons a rest ih =>
    obtain ⟨f, rfl⟩ : ∃ f, fuel = f + 1 := ⟨fuel - 1, by simp at hf; omega⟩
    cases hc with
    | @node _ c _ hr hc' =>
      have ha : a ∉ rest := (List.nodup_cons.1 hnd).1
      have hrest : ∀ b ∈ rest, (h.write a c.clearAudit).read b = h.read b :=
        fun b hb => Heap.read_write_ne (by rintro rfl; exact ha hb) _
      have hc₁ := hc'.frame fun b hb => by rw [hrest b hb]
      obtain ⟨h', hu, hlen, hnode, hother⟩ := ih hc₁ (List.nodup_cons.1 hnd).2 (by simpa using hf)
      refine ⟨h', ?_, by simp [hlen], fun b hb => ?_, fun b hb => ?_⟩
      · simp [unsupportFrom, hr, hu, Heap.collect_cons hr,
          Heap.collect_congr fun b hb => congrArg (Option.map _) (hrest b hb)]
      · rcases List.mem_cons.1 hb with rfl | hb
        · rw [Heap.read_congr (hother b ha), Heap.read_write_self (Heap.lt_of_read hr), hr]
          rfl
        · rw [hnode b hb, hrest b hb]
      · rw [hother b fun h => hb (List.mem_cons_of_mem _ h),
          Heap.get_write_ne fun h : a = b => hb (h ▸ List.mem_cons_self _ _)]

/-- The loop of `rules_clear` frees exactly the cells the nodes of the chain own, when they
are live and no two of them are one cell. -/
theorem clearFrom_chain {p : Option Addr} {fuel : Nat} (hc : Chain h p as)
    (hnd : (h.footprint as).Nodup) (hlive : ∀ b ∈ h.footprint as, (h.get b).isSome)
    (hf : as.length ≤ fuel) :
    ∃ h', clearFrom h fuel p = some h' ∧ h'.length = h.length ∧
      ∀ b, h'.get b = if b ∈ h.footprint as then none else h.get b := by
  induction as generalizing h p fuel with
  | nil =>
    cases hc
    exact ⟨h, by simp [clearFrom], rfl, by simp⟩
  | cons a rest ih =>
    obtain ⟨f, rfl⟩ : ∃ f, fuel = f + 1 := ⟨fuel - 1, by simp at hf; omega⟩
    cases hc with
    | @node _ c _ hr hc' =>
      have hfp : h.footprint (a :: rest) = a :: (c.strs ++ h.footprint rest) := by
        rw [Heap.footprint_cons, Heap.cellsOf_of_read hr, List.cons_append]
      rw [hfp] at hnd hlive ⊢
      obtain ⟨ha, hnd'⟩ := List.nodup_cons.1 hnd
      obtain ⟨hs, hrest, hdisj⟩ := List.nodup_append.1 hnd'
      -- `free` of each string of the node, then of the node
      obtain ⟨h₁, hf₁, hlen₁, hg₁⟩ := Heap.freeAll_live hs fun b hb => hlive b (by simp [hb])
      have hga : h₁.get a = some (.node c) := by
        rw [hg₁, if_neg fun h => ha (List.mem_append_left _ h), Heap.get_of_read hr]
      have hg₂ : ∀ b, b ≠ a → b ∉ c.strs → Heap.get (h₁.set a none) b = h.get b := fun b hba hbs => by
        rw [Heap.get_set_ne (Ne.symm hba), hg₁, if_neg hbs]
      have hout : ∀ b ∈ h.footprint rest, b ≠ a ∧ b ∉ c.strs := fun b hb =>
        ⟨fun h => ha (h ▸ List.mem_append_right _ hb), fun h => hdisj h hb⟩
      have hread : ∀ b ∈ rest, Heap.read (h₁.set a none) b = h.read b := fun b hb =>
        have hb' := hout b (Heap.mem_footprint hb)
        Heap.read_congr (hg₂ b hb'.1 hb'.2)
      have hfp' : Heap.footprint (h₁.set a none) rest = h.footprint rest :=
        Heap.footprint_congr fun b hb => by rw [hread b hb]
      obtain ⟨h', hu, hlen, hg⟩ := ih (hc'.frame fun b hb => by rw [hread b hb]) (hfp' ▸ hrest)
        (fun b hb => by
          rw [hfp'] at hb
          rw [hg₂ b (hout b hb).1 (hout b hb).2]
          exact hlive b (by simp [hb]))
        (by simpa using hf)
      refine ⟨h', by simp [clearFrom, hr, hf₁, Heap.free_live hga, hu], by simp [hlen, hlen₁], fun b => ?_⟩
      rw [hg, hfp']
      by_cases hb : b ∈ h.footprint rest
      · simp [hb]
      by_cases hba : b = a
      · subst hba
        simp [Heap.get_set_self (hlen₁ ▸ Heap.lt_of_read hr)]
      by_cases hbs : b ∈ c.strs
      · simp [hb, hbs, Heap.get_set_ne (Ne.symm hba), hg₁]
      · simp [hb, hbs, hba, hg₂ b hba hbs]

/-- From a cursor on a chain, `rules_next` visits the chain's nodes in order and then
returns `NULL`. -/
theorem traverse_chain {l : LList} {p : Option Addr} (hcur : l.cur = p) (hc : Chain l.heap p as)
    {fuel : Nat} (hf : as.length ≤ fuel) : traverse fuel l = some as := by
  induction as generalizing l p fuel with
  | nil =>
    cases hc
    cases fuel <;> simp [traverse, hcur]
  | cons a rest ih =>
    obtain ⟨f, rfl⟩ : ∃ f, fuel = f + 1 := ⟨fuel - 1, by simp at hf; omega⟩
    cases hc with
    | @node _ c _ hr hc' =>
      have := ih (l := { l with cur := c.next }) rfl hc' (by simpa using hf)
      simp [traverse, hcur, rulesNext, hr, this]

end Loops

end Fapolicyd
