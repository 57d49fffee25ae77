import Fapolicyd.Store.Refine
import Fapolicyd.Eval.Settled

/-!
# Deciding an event against the rule store

The daemon decides an event by walking the store: `rules_first`, then
`rules_next` until it returns `NULL`, evaluating each node's rule with
`rule_evaluate` until one has an opinion. This module joins the two halves of
the development: the heap-level walk over the linked list and the evaluator.

## The model

`decideWalk` is that walk, with as many steps as its fuel; it follows the
cursor on the heap and threads the pattern state from one rule to the next.

## What is proved

On any store built by a sequence of calls from `rules_create`, the walk of
`cnt` steps from `rules_first` returns, and returns the first-match decision over
the abstract list of rules `Op.absRun` gives (`rules_decide_first_match`). With
`firstMatch_settled`, from a settled pattern state this is the decision of the
first rule that, evaluated alone, has an opinion.

`rules_unsupport_audit` converts the audit variants of the decisions to the plain
ones: on such a store, where no rule decides `AUDIT` alone, the walk after it gives
each event the decision the walk gave before, with `AUDIT` cleared, and leaves the
same pattern state (`rulesUnsupportAudit_strips_decisions`).

A rule that matches every event, such as that of `deny perm=any all : all`, closes
the policy: on a store that holds one, the walk gives every event a decision,
always that of one of the store's rules (`rules_catch_all_decides`).

## Honest scope

The walk is not in `rules.c`: it stands for the caller's loop the spec describes,
"applied per rule, in store order, ... until one rule returns other than
NO_OPINION, or the store is exhausted".
-/

namespace Fapolicyd

/-- Modelled from the spec: the caller's walk over the store with `rules_next`, evaluating
each node's rule on the event until one has an opinion, within `fuel` nodes. -/
def decideWalk (e : Event) : Nat → LList → ProcInfo → Option (Decision × ProcInfo)
  | 0, l, p =>
    match l.cur with
    | none => some (NO_OPINION, p)
    | some _ => none
  | fuel + 1, l, p =>
    match l.cur with
    | none => some (NO_OPINION, p)
    | some a =>
      (l.heap.read a).bind fun c =>
        let t := ruleEvaluate c.rule e p
        if t.1 = NO_OPINION then (rulesNext l).bind fun n => decideWalk e fuel n.1 t.2
        else some t

/-- From a cursor on a chain, the walk evaluates the chain's rules in order: it is the
first-match loop over them. -/
theorem decideWalk_chain (e : Event) {as : List Addr} {l : LList} {q : Option Addr}
    (hcur : l.cur = q) (hc : Chain l.heap q as) {fuel : Nat} (hf : as.length ≤ fuel)
    (p : ProcInfo) : decideWalk e fuel l p = some (firstMatch e (l.heap.collect Cell.rule as) p) := by
  induction as generalizing l q fuel p with
  | nil =>
    cases hc
    cases fuel <;> simp [decideWalk, hcur, firstMatch]
  | cons a rest ih =>
    obtain ⟨f, rfl⟩ : ∃ f, fuel = f + 1 := ⟨fuel - 1, by simp at hf; omega⟩
    cases hc with
    | @node _ c _ hr hc' =>
      have hrest := ih (l := { l with cur := c.next }) rfl hc' (by simpa using hf)
      simp only [decideWalk, hcur, hr, Option.some_bind, Heap.collect_cons hr, firstMatch]
      split_ifs
      · simp [rulesNext, hcur, hr, hrest]
      · rfl

/-- On a list that holds the rules `rs`, the walk of `cnt` steps from `rules_first` is the
first-match loop over `rs`. -/
theorem Rep.decideWalk_first {l : LList} {as : List Addr} {rs : List LNode} (hr : Rep l as rs)
    (e : Event) (p : ProcInfo) : decideWalk e l.cnt (rulesFirst l) p = some (firstMatch e rs p) := by
  rw [decideWalk_chain e (l := rulesFirst l) rfl hr.chain hr.length_eq.le]
  exact congrArg (some ∘ (firstMatch e · p)) hr.rules

/-- **The daemon's decision is first match over the abstract rules.** On a store built by
any calls from `rules_create`, walking it from `rules_first` over its `cnt` nodes returns
the first-match decision over the rules `Op.absRun` gives, and the pattern state that
loop leaves. -/
theorem rules_decide_first_match (D : NameTables) (USE_AUDIT : Bool) (h0 : Heap)
    (ops : List Op) (l : LList) (hl : Op.run D USE_AUDIT (rulesCreate h0) ops = some l)
    (e : Event) (p : ProcInfo) :
    decideWalk e l.cnt (rulesFirst l) p = some (firstMatch e (Op.absRun D USE_AUDIT ops) p) := by
  obtain ⟨as, hr⟩ := Rep.of_run hl
  rw [decideWalk_chain e (l := rulesFirst l) rfl hr.chain hr.length_eq.le]
  exact congrArg (some ∘ (firstMatch e · p)) hr.rules

/-- A store of one line, `allow perm=any uid=0 : path=/x`, decided for an event with no
attributes from the state `NORMAL`. -/
theorem rules_decide_first_match_one_rule :
    let ops : List Op := [.append (some "allow perm=any uid=0 : path=/x") 1]
    let r : LNode := { d := ALLOW, a := .anyAcc, s := [⟨.uid, .val 0⟩], o := [⟨.path, "/x", 0⟩],
                       format := .ruleFmtColon }
    let l : LList := ⟨[some (.node ⟨r, [1], 0, none⟩), some (.str "/x")], some 0, some 0, 1⟩
    Op.run daemonTables false (rulesCreate []) ops = some l ∧
      decideWalk ⟨0, fun _ => none, fun _ => none⟩ l.cnt (rulesFirst l) ⟨.normal, 0, none, none⟩ =
        some (firstMatch ⟨0, fun _ => none, fun _ => none⟩ (Op.absRun daemonTables false ops)
          ⟨.normal, 0, none, none⟩) :=
  ⟨by decide, rules_decide_first_match daemonTables false [] _ _ (by decide) _ _⟩

/-! ### Decisions after `rules_unsupport_audit` -/

theorem checkObjectLoop_clearAudit (r : LNode) (e : Event) :
    ∀ cnt o, checkObjectLoop r.clearAudit e cnt o = checkObjectLoop r e cnt o
  | _, [] => rfl
  | cnt, f :: rest => by
    rw [checkObjectLoop, checkObjectLoop, checkObjectLoop_clearAudit r e (cnt + 1) rest]
    rfl

theorem ruleEvaluate_fst (r : LNode) (e : Event) (p : ProcInfo) :
    (ruleEvaluate r e p).1 = NO_OPINION ∨ (ruleEvaluate r e p).1 = r.d := by
  unfold ruleEvaluate
  dsimp only
  split_ifs <;> simp

private theorem noOpinion_clearAudit : NO_OPINION &&& ~~~AUDIT = NO_OPINION := by decide

/-- Clearing `AUDIT` in a rule clears it in the rule's verdict and changes nothing else. -/
theorem ruleEvaluate_clearAudit (r : LNode) (e : Event) (p : ProcInfo) :
    ruleEvaluate r.clearAudit e p = ((ruleEvaluate r e p).1 &&& ~~~AUDIT, (ruleEvaluate r e p).2) := by
  have ha : checkAccess r.clearAudit e = checkAccess r e := rfl
  have hs : checkSubject r.clearAudit e p = checkSubject r e p := rfl
  have ho : checkObject r.clearAudit e = checkObject r e := checkObjectLoop_clearAudit r e 0 r.o
  unfold ruleEvaluate
  rw [ha, hs, ho]
  dsimp only
  split_ifs <;> first | rfl | simp only [noOpinion_clearAudit]

/-- Over rules none of which decides `AUDIT` alone, the first-match loop on the rules with
`AUDIT` cleared gives the decision it gives on the rules, with `AUDIT` cleared. -/
theorem firstMatch_clearAudit (e : Event) (rs : List LNode)
    (hd : ∀ r ∈ rs, r.d &&& ~~~AUDIT = NO_OPINION → r.d = NO_OPINION) (p : ProcInfo) :
    firstMatch e (rs.map LNode.clearAudit) p =
      ((firstMatch e rs p).1 &&& ~~~AUDIT, (firstMatch e rs p).2) := by
  induction rs generalizing p with
  | nil => exact congrArg (·, p) noOpinion_clearAudit.symm
  | cons r rs ih =>
    have key : (ruleEvaluate r e p).1 &&& ~~~AUDIT = NO_OPINION ↔
        (ruleEvaluate r e p).1 = NO_OPINION := by
      rcases ruleEvaluate_fst r e p with h | h <;> rw [h]
      · exact iff_of_true noOpinion_clearAudit rfl
      · exact ⟨hd r (List.mem_cons_self _ _), fun h0 => h0 ▸ noOpinion_clearAudit⟩
    simp only [List.map_cons, firstMatch, ruleEvaluate_clearAudit]
    by_cases h : (ruleEvaluate r e p).1 = NO_OPINION
    · rw [if_pos (key.2 h), if_pos h, ih (fun r' hr' => hd r' (List.mem_cons_of_mem _ hr'))]
    · rw [if_neg (mt key.1 h), if_neg h]

/-- **Stripping `AUDIT` strips the decisions.** On a store built by any calls from
`rules_create` in a build with `USE_AUDIT`, where no rule decides `AUDIT` alone,
`rules_unsupport_audit` returns, and the walk over the store it leaves gives every event the
decision the walk gave before, with `AUDIT` cleared, and the same pattern state. -/
theorem rulesUnsupportAudit_strips_decisions (D : NameTables) (h0 : Heap) (ops : List Op)
    (l : LList) (hl : Op.run D true (rulesCreate h0) ops = some l)
    (hd : ∀ r ∈ Op.absRun D true ops, r.d &&& ~~~AUDIT = NO_OPINION → r.d = NO_OPINION)
    (e : Event) (p : ProcInfo) :
    ∃ l' log, rulesUnsupportAudit true l = some (l', log) ∧
      decideWalk e l'.cnt (rulesFirst l') p =
        (decideWalk e l.cnt (rulesFirst l) p).map fun t => (t.1 &&& ~~~AUDIT, t.2) := by
  obtain ⟨as, hr⟩ := Rep.of_run hl
  obtain ⟨l', hu, hr', -⟩ := hr.unsupportAudit true
  refine ⟨l', _, hu, ?_⟩
  have h1 : (rulesFirst l').heap.collect Cell.rule as = (Op.absRun D true ops).map LNode.clearAudit :=
    hr'.rules
  have h2 : (rulesFirst l).heap.collect Cell.rule as = Op.absRun D true ops := hr.rules
  rw [decideWalk_chain e (l := rulesFirst l') rfl hr'.chain hr'.length_eq.le,
    decideWalk_chain e (l := rulesFirst l) rfl hr.chain hr.length_eq.le, Option.map_some', h1, h2]
  exact congrArg some (firstMatch_clearAudit e _ hd p)

/-- A store of one line, `allow_audit perm=any uid=0 : path=/x`: after
`rules_unsupport_audit`, an event of uid `0` on `/x` is allowed, without `AUDIT`. -/
theorem rulesUnsupportAudit_strips_allow_audit :
    let ops : List Op := [.append (some "allow_audit perm=any uid=0 : path=/x") 1]
    let r : LNode := { d := ALLOW ||| AUDIT, a := .anyAcc, s := [⟨.uid, .val 0⟩],
                       o := [⟨.path, "/x", 0⟩], format := .ruleFmtColon }
    let l : LList := ⟨[some (.node ⟨r, [1], 0, none⟩), some (.str "/x")], some 0, some 0, 1⟩
    let e : Event := ⟨0, fun t => if t = .uid then some (.val 0) else none,
                      fun t => if t = .path then some ⟨some "/x", 0⟩ else none⟩
    Op.run daemonTables true (rulesCreate []) ops = some l ∧
      (∀ r ∈ Op.absRun daemonTables true ops, r.d &&& ~~~AUDIT = NO_OPINION → r.d = NO_OPINION) ∧
      ∃ l' log, rulesUnsupportAudit true l = some (l', log) ∧
        decideWalk e l'.cnt (rulesFirst l') ⟨.normal, 0, none, none⟩ =
          (decideWalk e l.cnt (rulesFirst l) ⟨.normal, 0, none, none⟩).map
            fun t => (t.1 &&& ~~~AUDIT, t.2) :=
  ⟨by decide, by decide,
    rulesUnsupportAudit_strips_decisions daemonTables []
      [.append (some "allow_audit perm=any uid=0 : path=/x") 1] _ (by decide) (by decide) _ _⟩

/-! ### A rule that matches every event -/

/-- The rule matches every event: it applies to any access, and its subject and object
fields are all `all`, as in `deny perm=any all : all`. -/
def LNode.CatchAll (r : LNode) : Prop :=
  r.a = .anyAcc ∧ (∀ f ∈ r.s, f.type = .allSubj) ∧ ∀ f ∈ r.o, f.type = .allObj

instance : DecidablePred LNode.CatchAll := fun r =>
  inferInstanceAs (Decidable (r.a = .anyAcc ∧ (∀ f ∈ r.s, f.type = .allSubj) ∧ ∀ f ∈ r.o, f.type = .allObj))

theorem checkSubjectLoop_allSubj (e : Event) :
    ∀ (s : List SubjectAttr), (∀ f ∈ s, f.type = .allSubj) → ∀ p, checkSubjectLoop e s p = (1, p)
  | [], _, _ => rfl
  | f :: s, hs, p => by
    have hf := hs f (List.mem_cons_self _ _)
    rw [checkSubjectLoop, if_neg (by rw [hf]; decide), if_pos (by simp [subjFieldOk, hf])]
    exact checkSubjectLoop_allSubj e s (fun g hg => hs g (List.mem_cons_of_mem _ hg)) p

theorem checkObjectLoop_allObj (r : LNode) (e : Event) :
    ∀ (o : List ObjectAttr), (∀ f ∈ o, f.type = .allObj) → ∀ cnt, checkObjectLoop r e cnt o = 1
  | [], _, _ => rfl
  | f :: o, ho, cnt => by
    rw [checkObjectLoop, if_pos (by simp [objFieldOk, ho f (List.mem_cons_self _ _)])]
    exact checkObjectLoop_allObj r e o (fun g hg => ho g (List.mem_cons_of_mem _ hg)) _

/-- A rule that matches every event gives its decision, and leaves the pattern state. -/
theorem ruleEvaluate_catchAll {r : LNode} (hr : r.CatchAll) (e : Event) (p : ProcInfo) :
    ruleEvaluate r e p = (r.d, p) := by
  obtain ⟨ha, hs, ho⟩ := hr
  have hsub : checkSubject r e p = (1, p) := checkSubjectLoop_allSubj e r.s hs p
  have hobj : checkObject r e = 1 := checkObjectLoop_allObj r e r.o ho 0
  rw [ruleEvaluate, checkAccess, if_pos ha, hsub, hobj]
  rfl

/-- The first-match loop has no opinion, or the decision of one of the rules. -/
theorem firstMatch_fst (e : Event) :
    ∀ (rs : List LNode) p, (firstMatch e rs p).1 = NO_OPINION ∨ ∃ r ∈ rs, (firstMatch e rs p).1 = r.d
  | [], _ => .inl rfl
  | r :: rs, p => by
    rw [firstMatch]
    split_ifs with h
    · rcases firstMatch_fst e rs _ with h' | ⟨r', hr', h'⟩
      · exact .inl h'
      · exact .inr ⟨r', List.mem_cons_of_mem _ hr', h'⟩
    · exact (ruleEvaluate_fst r e p).elim (fun h' => absurd h' h)
        fun h' => .inr ⟨r, List.mem_cons_self _ _, h'⟩

/-- Over rules of which one matches every event with an opinion, the first-match loop always
has an opinion. -/
theorem firstMatch_catchAll (e : Event) {r : LNode} (hr : r.CatchAll) (hd : r.d ≠ NO_OPINION) :
    ∀ (rs : List LNode), r ∈ rs → ∀ p, (firstMatch e rs p).1 ≠ NO_OPINION
  | [], hm, _ => absurd hm (List.not_mem_nil _)
  | r' :: rs, hm, p => by
    rw [firstMatch]
    split_ifs with h
    · have hm' : r ∈ rs := (List.mem_cons.1 hm).resolve_left fun he => by
        rw [← he, ruleEvaluate_catchAll hr] at h
        exact hd h
      exact firstMatch_catchAll e hr hd rs hm' _
    · exact h

/-- **A catch-all rule closes the policy.** On a store built by any calls from
`rules_create` whose rules include one that matches every event, with a decision, such as
the rule of `deny perm=any all : all`, the walk from `rules_first` gives every event, from
every pattern state, a decision other than `NO_OPINION`, and that decision is the decision
of one of the store's rules. -/
theorem rules_catch_all_decides (D : NameTables) (USE_AUDIT : Bool) (h0 : Heap) (ops : List Op)
    (l : LList) (hl : Op.run D USE_AUDIT (rulesCreate h0) ops = some l)
    (hall : ∃ r ∈ Op.absRun D USE_AUDIT ops, r.CatchAll ∧ r.d ≠ NO_OPINION) (e : Event)
    (p : ProcInfo) :
    ∃ t, decideWalk e l.cnt (rulesFirst l) p = some t ∧ t.1 ≠ NO_OPINION ∧
      ∃ r ∈ Op.absRun D USE_AUDIT ops, t.1 = r.d := by
  obtain ⟨as, hr⟩ := Rep.of_run hl
  obtain ⟨r, hm, hc, hd⟩ := hall
  have hne := firstMatch_catchAll e hc hd _ hm p
  exact ⟨_, hr.decideWalk_first e p, hne, (firstMatch_fst e _ p).resolve_left hne⟩

/-- A store of `allow perm=any uid=0 : path=/x`, then `deny perm=any all : all`: every event
is decided. -/
theorem rules_catch_all_decides_default_deny :
    let ops : List Op := [.append (some "allow perm=any uid=0 : path=/x") 1,
      .append (some "deny perm=any all : all") 2]
    let r1 : LNode := { d := ALLOW, a := .anyAcc, s := [⟨.uid, .val 0⟩], o := [⟨.path, "/x", 0⟩],
                        format := .ruleFmtColon }
    let r2 : LNode := { d := DENY, a := .anyAcc, s := [⟨.allSubj, .unset⟩], o := [⟨.allObj, "", 0⟩],
                        format := .ruleFmtColon }
    let l : LList := ⟨[some (.node ⟨r1, [1], 0, some 2⟩), some (.str "/x"),
      some (.node ⟨r2, [3], 1, none⟩), some (.str "")], some 0, some 2, 2⟩
    Op.run daemonTables false (rulesCreate []) ops = some l ∧
      (∃ r ∈ Op.absRun daemonTables false ops, r.CatchAll ∧ r.d ≠ NO_OPINION) ∧
      ∀ e p, ∃ t, decideWalk e l.cnt (rulesFirst l) p = some t ∧ t.1 ≠ NO_OPINION ∧
        ∃ r ∈ Op.absRun daemonTables false ops, t.1 = r.d :=
  ⟨by decide, by decide, rules_catch_all_decides daemonTables false [] _ _ (by decide) (by decide)⟩

end Fapolicyd
