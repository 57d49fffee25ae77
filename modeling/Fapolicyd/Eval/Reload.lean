import Fapolicyd.Eval.Decide

/-!
# What later calls change

The daemon loads its rules once and may load them again: `rules_clear`, then a
`rules_append` for each line of the new rules, then, in a build with `USE_AUDIT`,
`rules_unsupport_audit`. This module says what the walk of
`Fapolicyd.Eval.Decide` decides on the store such calls leave, against the store
before them, and what a second conversion does.

## The model

`Op.onlyAdds` tells the calls that can only add rules: `rules_append`, and the
moves of the cursor. Every result goes through the refinement `Rep`, and rests on
what the calls do to the abstract rules: `rules_clear` empties them
(`Op.absRun_append_clear`), and a call that only adds rules puts them after the
others (`Op.absRun_append_of_onlyAdds`).

## What is proved

`rules_clear` resets the store: after it, the store holds and decides exactly what
a fresh store given the same later calls does, wherever its nodes lie
(`rules_clear_resets`).

A rule appended later never overrides an earlier one: after more appends, every
event an earlier rule decides is decided as before, and the new rules decide only
the events the earlier ones leave without an opinion, from the pattern state they
leave (`rules_append_keeps_decisions`).

`rules_unsupport_audit` run again on the store it converted leaves memory exactly
as it is and logs nothing (`rulesUnsupportAudit_idempotent`).
-/

namespace Fapolicyd

/-! ### What the calls do to the rules -/

/-- The call can only add rules: `rules_append`, `rules_first` or `rules_next`, not
`rules_unsupport_audit` or `rules_clear`. -/
def Op.onlyAdds : Op → Bool
  | .append _ _ | .first | .next => true
  | .unsupportAudit | .clear => false

theorem Op.run_append (D : NameTables) (USE_AUDIT : Bool) (l : LList) (ops ops' : List Op) :
    Op.run D USE_AUDIT l (ops ++ ops') =
      (Op.run D USE_AUDIT l ops).bind fun l' => Op.run D USE_AUDIT l' ops' := by
  induction ops generalizing l with
  | nil => rfl
  | cons op ops ih =>
    simp only [List.cons_append, Op.run]
    cases op.step D USE_AUDIT l with
    | none => rfl
    | some l₁ => exact ih l₁

/-- `rules_clear` empties the rules, so what a store holds after it comes of the later calls
alone. -/
theorem Op.absRun_append_clear (D : NameTables) (USE_AUDIT : Bool) (ops ops' : List Op) :
    Op.absRun D USE_AUDIT (ops ++ .clear :: ops') = Op.absRun D USE_AUDIT ops' := by
  simp only [Op.absRun, List.foldl_append, List.foldl_cons, Op.abs]

/-- A call that only adds rules puts what it adds after the rules there are. -/
theorem Op.abs_of_onlyAdds (D : NameTables) (USE_AUDIT : Bool) {op : Op} (h : op.onlyAdds)
    (rs : List LNode) : Op.abs D USE_AUDIT rs op = rs ++ Op.abs D USE_AUDIT [] op := by
  cases op with
  | append buf lineno =>
    cases buf with
    | none => simp [Op.abs]
    | some b =>
      simp only [Op.abs]
      cases nvSplit D b lineno with
      | ret rc n log => by_cases hrc : rc = 0 <;> simp [hrc]
      | exit log | overrun log => simp
  | first | next => simp [Op.abs]
  | unsupportAudit | clear => cases h

/-- Calls that only add rules put what they add after the rules there are. -/
theorem Op.foldl_abs_of_onlyAdds (D : NameTables) (USE_AUDIT : Bool) {ops : List Op}
    (h : ∀ op ∈ ops, op.onlyAdds) (rs : List LNode) :
    ops.foldl (Op.abs D USE_AUDIT) rs = rs ++ ops.foldl (Op.abs D USE_AUDIT) [] := by
  induction ops generalizing rs with
  | nil => simp
  | cons op ops ih =>
    have h' := fun o ho => h o (List.mem_cons_of_mem op ho)
    rw [List.foldl_cons, List.foldl_cons, ih h', ih h' (Op.abs D USE_AUDIT [] op),
      Op.abs_of_onlyAdds D USE_AUDIT (h op (List.mem_cons_self _ _)), List.append_assoc]

theorem Op.absRun_append_of_onlyAdds (D : NameTables) (USE_AUDIT : Bool) (ops : List Op)
    {ops' : List Op} (h : ∀ op ∈ ops', op.onlyAdds) :
    Op.absRun D USE_AUDIT (ops ++ ops') = Op.absRun D USE_AUDIT ops ++ Op.absRun D USE_AUDIT ops' := by
  rw [Op.absRun, List.foldl_append, Op.foldl_abs_of_onlyAdds D USE_AUDIT h]
  rfl

/-! ### Decisions on two stores -/

/-- A list that holds the rules `rs` counts them. -/
theorem Rep.cnt_eq {l : LList} {as : List Addr} {rs : List LNode} (hr : Rep l as rs) :
    l.cnt = rs.length := by
  rw [← hr.length_eq, ← hr.rules, hr.chain.length_collect]

/-- The first-match loop over two lists of rules: the first decides, unless it has no
opinion; then the second decides, from the pattern state the first left. -/
theorem firstMatch_append (e : Event) (rs rs' : List LNode) (p : ProcInfo) :
    firstMatch e (rs ++ rs') p =
      if (firstMatch e rs p).1 = NO_OPINION then firstMatch e rs' (firstMatch e rs p).2
      else firstMatch e rs p := by
  induction rs generalizing p with
  | nil => simp [firstMatch]
  | cons r rs ih =>
    simp only [List.cons_append, firstMatch]
    by_cases h : (ruleEvaluate r e p).1 = NO_OPINION
    · rw [if_pos h, if_pos h]
      exact ih _
    · rw [if_neg h, if_neg h, if_neg h]

/-- **`rules_clear` resets the store.** A store built by any calls, then `rules_clear`, then
the calls `ops'`, holds the rules a store built by `ops'` alone from `rules_create` holds, on
whatever heaps the two were created: as many, in the same order, and the walk from
`rules_first` decides every event from every pattern state alike on both. Nothing loaded
before the clear survives it, though the nodes of the two stores lie at other addresses. -/
theorem rules_clear_resets (D : NameTables) (USE_AUDIT : Bool) (h0 h1 : Heap)
    (ops ops' : List Op) (l l' : LList)
    (hl : Op.run D USE_AUDIT (rulesCreate h0) (ops ++ .clear :: ops') = some l)
    (hl' : Op.run D USE_AUDIT (rulesCreate h1) ops' = some l') :
    l.cnt = l'.cnt ∧
      (∃ as as', Rep l as (Op.absRun D USE_AUDIT ops') ∧ Rep l' as' (Op.absRun D USE_AUDIT ops')) ∧
      ∀ e p, decideWalk e l.cnt (rulesFirst l) p = decideWalk e l'.cnt (rulesFirst l') p := by
  obtain ⟨as, hr⟩ := Rep.of_run hl
  obtain ⟨as', hr'⟩ := Rep.of_run hl'
  rw [Op.absRun_append_clear] at hr
  exact ⟨hr.cnt_eq.trans hr'.cnt_eq.symm, ⟨as, as', hr, hr'⟩, fun e p => by
    rw [hr.decideWalk_first, hr'.decideWalk_first]⟩

/-- A store that held `deny perm=any all : all`, cleared and given
`allow perm=any uid=0 : path=/x`, against a fresh store given only the second line: the
cells of the first rule are freed, the one rule sits at the address `2` in the first store
and `0` in the second, and the two decide alike. -/
theorem rules_clear_resets_deny_then_allow :
    let ops : List Op := [.append (some "deny perm=any all : all") 1]
    let ops' : List Op := [.append (some "allow perm=any uid=0 : path=/x") 2]
    let allow : LNode := { d := ALLOW, a := .anyAcc, s := [⟨.uid, .val 0⟩], o := [⟨.path, "/x", 0⟩],
                           format := .ruleFmtColon }
    let l : LList := ⟨[none, none, some (.node ⟨allow, [3], 0, none⟩), some (.str "/x")], some 2,
      some 2, 1⟩
    let l' : LList := ⟨[some (.node ⟨allow, [1], 0, none⟩), some (.str "/x")], some 0, some 0, 1⟩
    Op.run daemonTables false (rulesCreate []) (ops ++ .clear :: ops') = some l ∧
      Op.run daemonTables false (rulesCreate []) ops' = some l' ∧
      l.cnt = l'.cnt ∧
      (∃ as as', Rep l as (Op.absRun daemonTables false ops') ∧
        Rep l' as' (Op.absRun daemonTables false ops')) ∧
      ∀ e p, decideWalk e l.cnt (rulesFirst l) p = decideWalk e l'.cnt (rulesFirst l') p :=
  ⟨by decide, by decide, rules_clear_resets daemonTables false [] []
    [.append (some "deny perm=any all : all") 1] _ _ _ (by decide) (by decide)⟩

/-- **A rule appended later never overrides an earlier one.** On a store built by any calls
`ops` and then calls `ops'` that only add rules, the walk from `rules_first` gives every event
the decision the store built by `ops` gave it when that had an opinion; otherwise the
decision of the first-match loop over the rules `ops'` added, from the pattern state the
earlier rules left. -/
theorem rules_append_keeps_decisions (D : NameTables) (USE_AUDIT : Bool) (h0 : Heap)
    (ops ops' : List Op) (hadds : ∀ op ∈ ops', op.onlyAdds) (l' : LList)
    (hl' : Op.run D USE_AUDIT (rulesCreate h0) (ops ++ ops') = some l') :
    ∃ l, Op.run D USE_AUDIT (rulesCreate h0) ops = some l ∧ ∀ e p,
      decideWalk e l'.cnt (rulesFirst l') p = (decideWalk e l.cnt (rulesFirst l) p).bind fun t =>
        if t.1 = NO_OPINION then some (firstMatch e (Op.absRun D USE_AUDIT ops') t.2)
        else some t := by
  obtain ⟨as', hr'⟩ := Rep.of_run hl'
  rw [Op.run_append] at hl'
  obtain ⟨l, hl, -⟩ := Option.bind_eq_some.1 hl'
  obtain ⟨as, hr⟩ := Rep.of_run hl
  rw [Op.absRun_append_of_onlyAdds D USE_AUDIT ops hadds] at hr'
  refine ⟨l, hl, fun e p => ?_⟩
  rw [hr'.decideWalk_first, hr.decideWalk_first, Option.some_bind, firstMatch_append]
  split_ifs <;> rfl

/-- A store of `allow perm=any uid=0 : path=/x`, given `deny perm=any all : all` after it:
the new rule decides only what the first leaves undecided. -/
theorem rules_append_keeps_decisions_deny_after_allow :
    let ops : List Op := [.append (some "allow perm=any uid=0 : path=/x") 1]
    let ops' : List Op := [.append (some "deny perm=any all : all") 2, .first]
    let r1 : LNode := { d := ALLOW, a := .anyAcc, s := [⟨.uid, .val 0⟩], o := [⟨.path, "/x", 0⟩],
                        format := .ruleFmtColon }
    let r2 : LNode := { d := DENY, a := .anyAcc, s := [⟨.allSubj, .unset⟩], o := [⟨.allObj, "", 0⟩],
                        format := .ruleFmtColon }
    let l' : LList := ⟨[some (.node ⟨r1, [1], 0, some 2⟩), some (.str "/x"),
      some (.node ⟨r2, [3], 1, none⟩), some (.str "")], some 0, some 0, 2⟩
    (∀ op ∈ ops', op.onlyAdds) ∧ Op.run daemonTables false (rulesCreate []) (ops ++ ops') = some l' ∧
      ∃ l, Op.run daemonTables false (rulesCreate []) ops = some l ∧ ∀ e p,
        decideWalk e l'.cnt (rulesFirst l') p = (decideWalk e l.cnt (rulesFirst l) p).bind fun t =>
          if t.1 = NO_OPINION then some (firstMatch e (Op.absRun daemonTables false ops') t.2)
          else some t :=
  ⟨by decide, by decide, rules_append_keeps_decisions daemonTables false [] _ _ (by decide) _ (by decide)⟩

/-! ### Converting the decisions twice -/

/-- On a list whose rules have no `AUDIT` bit left to clear, `rules_unsupport_audit` rewrites
each node as it was and logs nothing. -/
theorem Rep.unsupportAudit_fixed {l : LList} {as : List Addr} {rs : List LNode} (hr : Rep l as rs)
    (hfix : ∀ r ∈ rs, r.clearAudit = r) : rulesUnsupportAudit true l = some (l, []) := by
  obtain ⟨h', hu, hlen, hnode, hother⟩ := unsupportFrom_chain hr.chain hr.nodes_nodup hr.fuel_le
  have hh : h' = l.heap := Heap.ext hlen fun b => by
    by_cases hb : b ∈ as
    · obtain ⟨c, hc⟩ := hr.chain.read_of_mem hb
      have hmem : c.rule ∈ rs := hr.rules ▸ List.mem_filterMap.2 ⟨b, hb, by simp [hc]⟩
      have hc' : h'.read b = some c := by
        rw [hnode b hb, hc, Option.map_some', Cell.clearAudit, hfix _ hmem]
      rw [Heap.get_of_read hc, Heap.get_of_read hc']
    · exact hother b hb
  have hw : (l.heap.collect Cell.rule as).any (fun r => r.d &&& AUDIT != 0) = false := by
    rw [hr.rules, List.any_eq_false]
    intro r hr' hne
    rw [← hfix r hr', (LNode.clearAudit_spec r).2.1] at hne
    exact absurd hne (by decide)
  rw [rulesUnsupportAudit, if_pos rfl, hu, hh, hw]
  rfl

/-- **Converting twice changes nothing.** In a build with `USE_AUDIT`, on a store built by any
calls from `rules_create`, `rules_unsupport_audit` returns, and run again on the store it
leaves, it returns that very store, heap, head, cursor and count, and logs nothing. -/
theorem rulesUnsupportAudit_idempotent (D : NameTables) (h0 : Heap) (ops : List Op) (l : LList)
    (hl : Op.run D true (rulesCreate h0) ops = some l) :
    ∃ l' log, rulesUnsupportAudit true l = some (l', log) ∧
      rulesUnsupportAudit true l' = some (l', []) := by
  obtain ⟨as, hr⟩ := Rep.of_run hl
  obtain ⟨l', hu, hr', -⟩ := hr.unsupportAudit true
  refine ⟨l', _, hu, hr'.unsupportAudit_fixed fun r hr => ?_⟩
  obtain ⟨r₀, -, rfl⟩ := List.mem_map.1 hr
  exact LNode.clearAudit_clearAudit r₀

/-- A store of one `allow_audit` rule, converted twice: the second conversion leaves the store
as the first left it, and logs nothing. -/
theorem rulesUnsupportAudit_idempotent_allow_audit :
    let ops : List Op := [.append (some "allow_audit perm=any uid=0 : path=/x") 1]
    let r : LNode := { d := ALLOW ||| AUDIT, a := .anyAcc, s := [⟨.uid, .val 0⟩],
                       o := [⟨.path, "/x", 0⟩], format := .ruleFmtColon }
    let l : LList := ⟨[some (.node ⟨r, [1], 0, none⟩), some (.str "/x")], some 0, some 0, 1⟩
    Op.run daemonTables true (rulesCreate []) ops = some l ∧
      ∃ l' log, rulesUnsupportAudit true l = some (l', log) ∧
        rulesUnsupportAudit true l' = some (l', []) :=
  ⟨by decide, rulesUnsupportAudit_idempotent daemonTables []
    [.append (some "allow_audit perm=any uid=0 : path=/x") 1] _ (by decide)⟩

end Fapolicyd
