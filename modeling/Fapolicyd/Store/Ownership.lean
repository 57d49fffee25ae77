import Fapolicyd.Store.Refine

/-!
# The store owns its nodes and their strings, and leaks the strings of refused lines

`rules.c` allocates memory in two places, the `malloc` of `rules_append` and
the `strdup` of each string field in `assign_subject` and `assign_object`, and
frees it in two: the `free(newnode)` of a line `nv_split` refuses or skips, and
`rules_clear`, which frees each node and the strings its fields point to.
Between them it writes only the nodes of its list: `rules_append` links the
last one, `rules_unsupport_audit` clears a bit in each. So memory the store did
not allocate is never written, and the live cells it allocated are the cells
its list owns and the copies made for refused lines, which `free(newnode)`
leaves behind and nothing frees.

## The model

`HeapStep l as l' as' lk` (in `Fapolicyd.Store.Refine`) says what one call may do
to memory, and `Rep.step` proves it of every call. `Owned h0 l as lk ss` is the
invariant of a store created on the heap `h0`: the cells of `h0` read as they
did, the cells the list owns and the leaked cells `lk` lie past the end of
`h0` and apart, `lk` holds the strings `ss`, and every live cell past the end
of `h0` is one of them.

## What is proved

`Owned.step` lifts the invariant across any `HeapStep`, and `Owned.run` along
any sequence of calls from `rules_create`. `rules_store_owns_memory`: on every
store so built, the cells of `h0` are untouched, a cell the store allocated is
live exactly when the list owns it or it is a leaked copy, the leaked copies
hold the strings of the refused lines, in order, and `rules_clear` frees every
cell the list owns and only those.
-/

namespace Fapolicyd

/-- The ownership invariant of a store created on the heap `h0`, its list having the nodes
`as` and its calls having leaked the cells `lk`, which hold the strings `ss`. -/
structure Owned (h0 : Heap) (l : LList) (as lk : List Addr) (ss : List String) : Prop where
  grows : h0.length ≤ l.heap.length
  frame : ∀ b < h0.length, l.heap.get b = h0.get b
  owned : ∀ b ∈ l.heap.footprint as, h0.length ≤ b
  leaked : ∀ b ∈ lk, h0.length ≤ b ∧ b < l.heap.length ∧ b ∉ l.heap.footprint as
  strs : lk.map l.heap.get = ss.map fun s => some (.str s)
  live : ∀ b, h0.length ≤ b → (l.heap.get b).isSome → b ∈ l.heap.footprint as ∨ b ∈ lk

namespace Owned

variable {h0 : Heap} {l l' : LList} {as as' lk lk' : List Addr} {ss ss' : List String}

theorem create (h0 : Heap) : Owned h0 (rulesCreate h0) [] [] [] :=
  ⟨le_rfl, fun _ _ => rfl, fun _ hb => absurd hb (List.not_mem_nil _),
    fun _ hb => absurd hb (List.not_mem_nil _), rfl,
    fun b hb hs => by rw [rulesCreate, Heap.get_of_le hb] at hs; cases hs⟩

/-- A call keeps the invariant: it writes no cell of `h0`, frees each cell of a node it drops,
and what it allocates and does not link it leaks or frees. -/
theorem step (ho : Owned h0 l as lk ss) (hs : HeapStep l as l' as' lk')
    (hlk : lk'.map l'.heap.get = ss'.map fun s => some (.str s)) :
    Owned h0 l' as' (lk ++ lk') (ss ++ ss') := by
  have hnew : ∀ b ∈ l'.heap.footprint as', h0.length ≤ b := fun b hb =>
    (hs.fresh b hb).elim (ho.owned b) fun h => ho.grows.trans h
  -- a leaked cell is never written again
  have hkeep : ∀ b ∈ lk, l'.heap.get b = l.heap.get b := fun b hb =>
    hs.frame b (ho.leaked b hb).2.1 (ho.leaked b hb).2.2
  refine ⟨ho.grows.trans hs.grows, fun b hb => ?_, hnew, fun b hb => ?_, ?_, fun b hb hlive => ?_⟩
  · rw [hs.frame b (Nat.lt_of_lt_of_le hb ho.grows) fun h => absurd (ho.owned b h) (Nat.not_le.2 hb),
      ho.frame b hb]
  · rcases List.mem_append.1 hb with hb | hb
    · obtain ⟨h1, h2, h3⟩ := ho.leaked b hb
      exact ⟨h1, Nat.lt_of_lt_of_le h2 hs.grows, fun h => (hs.fresh b h).elim h3 (Nat.not_le.2 h2)⟩
    · obtain ⟨h1, h2⟩ := hs.leaked b hb
      obtain ⟨s, hs'⟩ := Heap.get_str_of_mem hlk hb
      exact ⟨ho.grows.trans h1, Heap.lt_of_get hs', h2⟩
  · rw [List.map_append, List.map_append, hlk, ← ho.strs, List.map_congr_left hkeep]
  · by_contra hout
    simp only [List.mem_append, not_or] at hout
    obtain ⟨hfp', hlk₁, hlk₂⟩ := hout
    by_cases hold : b < l.heap.length
    · by_cases hfp : b ∈ l.heap.footprint as
      · rw [hs.freed b hfp hfp'] at hlive
        cases hlive
      · rw [hs.frame b hold hfp] at hlive
        exact (ho.live b hb hlive).elim hfp hlk₁
    · rw [hs.new b (Nat.not_lt.1 hold) hfp' hlk₂] at hlive
      cases hlive

/-- Every sequence of calls from a represented, owned list that returns keeps both, the
calls leaking the strings `Op.leaks` names. -/
theorem run {D : NameTables} {USE_AUDIT : Bool} {rs : List LNode} (hr : Rep l as rs)
    (ho : Owned h0 l as lk ss) (ops : List Op) (hl : Op.run D USE_AUDIT l ops = some l') :
    ∃ as' lk', Rep l' as' (ops.foldl (Op.abs D USE_AUDIT) rs) ∧
      Owned h0 l' as' (lk ++ lk') (ss ++ ops.flatMap (Op.leaks D)) := by
  induction ops generalizing l as lk ss rs with
  | nil =>
    cases hl
    exact ⟨as, [], hr, by simpa using ho⟩
  | cons op ops ih =>
    rcases hr.step D USE_AUDIT op with ⟨hs, -⟩ | ⟨l₁, as₁, lk₁, hs, hr₁, hst, hlk⟩
    · simp [Op.run, hs] at hl
    · rw [Op.run, hs, Option.some_bind] at hl
      obtain ⟨as', lk', hr', ho'⟩ := ih hr₁ (ho.step hst hlk) hl
      exact ⟨as', lk₁ ++ lk', hr', by simpa using ho'⟩

end Owned

/-- **The store owns its nodes and their strings, and leaks the strings of refused lines.**
On every store built by any calls from `rules_create` on a heap `h0` that return: no cell of
`h0` has been written; a cell the store allocated is live exactly when the list owns it, as a
node or a string of one, or it is one of the leaked cells `lk`; those hold the strings of the
lines `nv_split` refused or skipped, in order; and `rules_clear` frees every cell the list
owns, leaving the heap as `h0`, the leaked copies and free cells. -/
theorem rules_store_owns_memory (D : NameTables) (USE_AUDIT : Bool) (h0 : Heap) (ops : List Op)
    (l : LList) (hl : Op.run D USE_AUDIT (rulesCreate h0) ops = some l) :
    ∃ as lk : List Addr, Rep l as (Op.absRun D USE_AUDIT ops) ∧
      (∀ b < h0.length, l.heap.get b = h0.get b) ∧
      (∀ b, h0.length ≤ b → ((l.heap.get b).isSome ↔ b ∈ l.heap.footprint as ∨ b ∈ lk)) ∧
      lk.map l.heap.get = (ops.flatMap (Op.leaks D)).map (fun s => some (.str s)) ∧
      ∃ h', rulesClear l = some (rulesCreate h') ∧
        ∀ b, h'.get b = if b < h0.length ∨ b ∈ lk then l.heap.get b else none := by
  obtain ⟨as, lk, hr, ho⟩ := Owned.run (Rep.create h0) (Owned.create h0) ops hl
  simp only [List.nil_append] at ho
  obtain ⟨h', hc, -, hg⟩ := hr.clear
  refine ⟨as, lk, hr, ho.frame, fun b hb => ⟨ho.live b hb, fun h => ?_⟩, by simpa using ho.strs,
    h', hc, fun b => ?_⟩
  · rcases h with h | h
    · exact hr.live b h
    · obtain ⟨s, hs⟩ := Heap.get_str_of_mem ho.strs h
      rw [hs]
      rfl
  · rw [hg]
    by_cases hkeep : b < h0.length ∨ b ∈ lk
    · have hfp : b ∉ l.heap.footprint as := hkeep.elim
        (fun h h' => absurd (ho.owned b h') (Nat.not_le.2 h)) fun h => (ho.leaked b h).2.2
      rw [if_neg hfp, if_pos hkeep]
    · rw [if_neg hkeep]
      simp only [not_or, Nat.not_lt] at hkeep
      split_ifs with hfp
      · rfl
      · exact Option.not_isSome_iff_eq_none.1 fun hs =>
          (ho.live b hkeep.1 hs).elim hfp hkeep.2

/-- A store created on a heap holding a cell it does not own, given an accepted line and the
line `deny perm=any exe=/bin/x :`, which `nv_split` refuses for its missing object after
copying its path: the foreign cell is untouched, the node of the rule and its path are live,
the node allocated for the refused line is free and the copy of `/bin/x` is leaked. -/
theorem rules_store_owns_memory_foreign_cell :
    let h0 : Heap := [some (.str "foreign")]
    let ops : List Op := [.append (some "allow perm=any uid=0 : path=/x") 1,
      .append (some "deny perm=any exe=/bin/x :") 2]
    let r : LNode := { d := ALLOW, a := .anyAcc, s := [⟨.uid, .val 0⟩], o := [⟨.path, "/x", 0⟩],
                       format := .ruleFmtColon }
    let l : LList := ⟨h0 ++ [some (.node ⟨r, [2], 0, none⟩), some (.str "/x"), none,
      some (.str "/bin/x")], some 1, some 1, 1⟩
    Op.run daemonTables false (rulesCreate h0) ops = some l ∧
      ∃ as lk : List Addr, Rep l as (Op.absRun daemonTables false ops) ∧
        (∀ b < h0.length, l.heap.get b = h0.get b) ∧
        (∀ b, h0.length ≤ b → ((l.heap.get b).isSome ↔ b ∈ l.heap.footprint as ∨ b ∈ lk)) ∧
        lk.map l.heap.get = (ops.flatMap (Op.leaks daemonTables)).map (fun s => some (.str s)) ∧
        ∃ h', rulesClear l = some (rulesCreate h') ∧
          ∀ b, h'.get b = if b < h0.length ∨ b ∈ lk then l.heap.get b else none :=
  ⟨by decide, rules_store_owns_memory daemonTables false _ _ _ (by decide)⟩

end Fapolicyd
