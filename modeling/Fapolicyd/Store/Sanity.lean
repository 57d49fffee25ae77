import Fapolicyd.Store.Refine

/-!
# The debug checks of the list

Built with `DEBUG`, `rules.c` checks the list on entry to `rules_append` and
again before it returns, with `sanity_check_list`: a list with a head must have a
nonzero `cnt`; walking it, a node with a `next` reached after `cnt - 1` others is
a "forward loop"; the walk must end on node number `cnt`; and every node it walks
past is checked with `sanity_check_node`. Any fault is logged and the process
aborts.

## The model

`Check` is how the check ends: it returns, or it aborts with the text it logged.
`sanityFrom` is the `while (n->next)` loop, with `i` as the code counts it and
`cnt` as its fuel: the loop aborts once `i` reaches `cnt`, so it never runs
longer, even on a cycle. `checkNodes` says what the checks of the nodes come to:
the first node that fails, in order.

## What is proved

On any store built by a sequence of calls from `rules_create`, the check returns,
and with the outcome of `sanity_check_node` over all the rules `Op.absRun` gives
but the last: it never reports a fault of the list itself
(`rules_sanity_check_list`). The last node is never checked, so the node
`rules_append` has just linked is not checked before the call returns.

## Honest scope

`sanity_check_node` is a parameter, any function of the node's rule. It reads the
field arrays, slot by slot, with the type `UNUSED` marking an empty one; the
model keeps only the used fields, so the check of the slots is left to whatever
the parameter decides.
-/

namespace Fapolicyd

/-- How `sanity_check_list` ends: it returns, or it logs the text and calls `abort()`. -/
inductive Check where
  | pass
  | abort (text : String)
  deriving DecidableEq, Repr

/-- The loop of `sanity_check_list(l, id)` from the node at `n`, with `i` the number of that
node in the walk, and as many turns as the list's count `cnt`: on a node with a `next`,
abort once `i` is `cnt`, else check the node and go on; on the last node, compare `i`
with `cnt`. `sanityCheckNode` is `sanity_check_node`: `some text` when it aborts. -/
def sanityFrom (sanityCheckNode : LNode → String → Option String) (h : Heap) (id : String)
    (cnt : Nat) : Nat → Nat → Addr → Option Check
  | 0, _, _ => none
  | fuel + 1, i, n => (h.read n).bind fun c =>
    match c.next with
    | some b =>
      if i = cnt then some (.abort s!"{id} - forward loop found {i}")
      else
        match sanityCheckNode c.rule id with
        | some text => some (.abort text)
        | none => sanityFrom sanityCheckNode h id cnt fuel (i + 1) b
    | none => some (if i ≠ cnt then .abort s!"{id} - count mismatch {i}!={cnt}" else .pass)

/-- `sanity_check_list(l, id)`, in a build with `DEBUG`. -/
def sanityCheckList (sanityCheckNode : LNode → String → Option String) (l : LList)
    (id : String) : Option Check :=
  match l.head with
  | none => some .pass
  | some n =>
    if l.cnt = 0 then some (.abort s!"{id} - zero length cnt found")
    else sanityFrom sanityCheckNode l.heap id l.cnt l.cnt 1 n

/-- The rules `rs` checked in turn with `sanityCheckNode`: the text of the first that fails. -/
def checkNodes (sanityCheckNode : LNode → String → Option String) (id : String) :
    List LNode → Check
  | [] => .pass
  | r :: rs =>
    match sanityCheckNode r id with
    | some text => .abort text
    | none => checkNodes sanityCheckNode id rs

section Walk

variable {sanityCheckNode : LNode → String → Option String} {h : Heap} {id : String} {cnt : Nat}

/-- From a node of a chain whose number `i` leaves exactly `cnt` nodes to its end, the loop
checks every node of the chain but the last, and finds the count right. -/
theorem sanityFrom_chain {as : List Addr} :
    ∀ {a i fuel : Nat}, Chain h (some a) as → i + as.length = cnt + 1 → as.length ≤ fuel →
      sanityFrom sanityCheckNode h id cnt fuel i a =
        some (checkNodes sanityCheckNode id (h.collect Cell.rule as).dropLast) := by
  induction as with
  | nil => intro _ _ _ hc; cases hc
  | cons a rest ih =>
    intro _ i fuel hc hi hf
    obtain ⟨f, rfl⟩ : ∃ f, fuel = f + 1 := ⟨fuel - 1, by simp at hf; omega⟩
    cases hc with
    | @node _ c _ hr hc' =>
      rw [sanityFrom, hr, Option.some_bind, Heap.collect_cons hr]
      cases hn : c.next with
      | none =>
        rw [hn] at hc'
        cases hc'
        have hi' : i = cnt := by simpa using hi
        simp [hi', checkNodes]
      | some b =>
        rw [hn] at hc'
        cases hc' with
        | @node _ c' rest' hr' hc'' =>
          have hne : i ≠ cnt := by simp at hi; omega
          dsimp only
          rw [if_neg hne, Heap.collect_cons hr', List.dropLast_cons₂, checkNodes]
          cases sanityCheckNode c.rule id with
          | some text => rfl
          | none =>
            rw [ih (.node hr' hc'') (by simp at hi ⊢; omega) (by simp at hf ⊢; omega),
              Heap.collect_cons hr']

end Walk

/-- **The debug check never finds a fault in the list.** On a store built by any calls from
`rules_create`, `sanity_check_list` returns, and with the outcome of `sanity_check_node` on
the rules `Op.absRun` gives, in order, all but the last: no zero count, no forward loop and
no count mismatch, whatever the node check decides. -/
theorem rules_sanity_check_list (D : NameTables) (USE_AUDIT : Bool) (h0 : Heap) (ops : List Op)
    (l : LList) (hl : Op.run D USE_AUDIT (rulesCreate h0) ops = some l)
    (sanityCheckNode : LNode → String → Option String) (id : String) :
    sanityCheckList sanityCheckNode l id =
      some (checkNodes sanityCheckNode id (Op.absRun D USE_AUDIT ops).dropLast) := by
  obtain ⟨as, hr⟩ := Rep.of_run hl
  have hc := hr.chain
  rw [← hr.rules, sanityCheckList]
  cases hh : l.head with
  | none =>
    rw [hh] at hc
    rw [hc.eq_nil]
    rfl
  | some a =>
    rw [hh] at hc
    have hpos : 0 < as.length := List.length_pos_of_mem (hc.head_mem rfl)
    have hlen : as.length = l.cnt := hr.length_eq
    dsimp only
    rw [if_neg (by omega)]
    exact sanityFrom_chain hc (by omega) hlen.le

/-- A store of one rule, checked on the way out of `rules_append` with a node check that
fails on every node: the check passes, for the only node is the last. -/
theorem rules_sanity_check_list_skips_last :
    let ops : List Op := [.append (some "allow perm=any uid=0 : path=/x") 1]
    let r : LNode := { d := ALLOW, a := .anyAcc, s := [⟨.uid, .val 0⟩], o := [⟨.path, "/x", 0⟩],
                       format := .ruleFmtColon }
    let l : LList := ⟨[some (.node ⟨r, [1], 0, none⟩), some (.str "/x")], some 0, some 0, 1⟩
    let fails : LNode → String → Option String := fun _ id => some s!"{id} - node fails"
    Op.run daemonTables false (rulesCreate []) ops = some l ∧
      sanityCheckList fails l "rules_append - 2" =
        some (checkNodes fails "rules_append - 2" (Op.absRun daemonTables false ops).dropLast) ∧
      checkNodes fails "rules_append - 2" (Op.absRun daemonTables false ops).dropLast = .pass :=
  ⟨by decide, rules_sanity_check_list daemonTables false [] _ _ (by decide) _ _, by decide⟩

end Fapolicyd
