import Fapolicyd.Eval.Evaluate

/-!
# When an earlier rule changes a later rule's verdict

`rule_evaluate` is not a function of the rule and the event alone: a pattern
field runs the pattern detector, which advances the process's `proc_info`, and
the next rule is evaluated from the state this one left. The first-match loop
of the caller therefore does not treat its rules independently.

## What is proved

An analysis error is a match once and a mismatch after: from `FULL` with
`HAS_ERROR`, the rule `allow perm=any pattern=ld_so : all` allows the event,
and evaluated again on the same event it has no opinion
(`ruleEvaluate_error_then_no_opinion`).

The state stops mattering in two cases. A rule without a pattern field leaves
the state as it found it. And from a stable state, any state but `FULL` with
`HAS_ERROR` and `COLLECTING` for a static ELF program, a pattern test leaves a
stable state at which every later test answers as it would have before
(`subjPatternTest_stable`). In either case the verdict of a later rule is the
one it would give from the earlier state, and from a stable state the
first-match loop gives the decision of the first rule that, evaluated alone,
has an opinion (`ruleEvaluate_independent`, `firstMatch_stable`). A settled
state, one past `FULL`, is stable, and every rule answers from its
classification alone and leaves it in the same class (`ruleEvaluate_settled`,
`firstMatch_settled`).

`NOT_ELF` and `BAD_ELF` are settled states that match no pattern: from either, no
rule with a pattern field has an opinion, and the first-match loop decides as if
those rules were not there (`firstMatch_unclassified`).

A static ELF program is matched by a pattern once. Its first pattern test, in
`COLLECTING`, answers as `STATIC_REOPEN` does and leaves that state, from which
the pattern rules have no opinion (`firstMatch_after_static_test`): after a rule
whose pattern test matched and whose other fields did not, a later
`pattern=static` rule does not match.
-/

namespace Fapolicyd

/-! ### Rules without a pattern field -/

/-- A rule without a pattern field leaves the pattern state as it was. -/
theorem ruleEvaluate_noPattern_state {r : LNode} (hr : ∀ f ∈ r.s, f.type ≠ .pattern) (e : Event)
    (p : ProcInfo) : (ruleEvaluate r e p).2 = p := by
  unfold ruleEvaluate checkSubject
  rw [checkSubject_noPattern e r.s hr p]
  split_ifs <;> rfl

/-! ### Settled states -/

section Settled

variable {e : Event} {p q : ProcInfo}

/-- From a settled state, `check_subject` keeps the classification. -/
theorem checkSubjectLoop_state_settled (hp : p.state.Settled) (s : List SubjectAttr) :
    (checkSubjectLoop e s p).2.state = p.state := by
  induction s generalizing p with
  | nil => rfl
  | cons f rest ih =>
    rw [checkSubjectLoop]
    by_cases hf : f.type = .pattern
    · by_cases hm : patternMatches f.value p.state
      · simpa [hf, subjPatternTest_settled hp, hm] using ih (p := clearProcInfo p) hp
      · simp [hf, subjPatternTest_settled hp, hm, clearProcInfo]
    · split_ifs
      · exact ih hp
      · rfl

/-- From settled states of the same class, `check_subject` gives the same answer. -/
theorem checkSubjectLoop_settled (hp : p.state.Settled) (hq : q.state = p.state)
    (s : List SubjectAttr) : (checkSubjectLoop e s p).1 = (checkSubjectLoop e s q).1 := by
  induction s generalizing p q with
  | nil => rfl
  | cons f rest ih =>
    rw [checkSubjectLoop, checkSubjectLoop]
    by_cases hf : f.type = .pattern
    · by_cases hm : patternMatches f.value p.state
      · simpa [hf, subjPatternTest_settled hp, subjPatternTest_settled (hq ▸ hp), hq, hm] using
          ih (p := clearProcInfo p) (q := clearProcInfo q) hp hq
      · simp [hf, subjPatternTest_settled hp, subjPatternTest_settled (hq ▸ hp), hq, hm]
    · split_ifs
      · exact ih hp hq
      · rfl

/-- **A settled state fixes every rule's verdict.** From settled states of the same class,
a rule gives the same verdict, and it leaves the state settled in that class. -/
theorem ruleEvaluate_settled (hp : p.state.Settled) (hq : q.state = p.state) (r : LNode) :
    (ruleEvaluate r e p).1 = (ruleEvaluate r e q).1 ∧ (ruleEvaluate r e p).2.state = p.state := by
  unfold ruleEvaluate checkSubject
  have h2 := checkSubjectLoop_state_settled (e := e) hp r.s
  dsimp only
  rw [checkSubjectLoop_settled hp hq r.s]
  split_ifs <;> simp [h2]

end Settled

/-! ### Classifications that match no pattern -/

/-- A file that is not ELF, or whose analysis failed, matches no pattern. -/
theorem patternMatches_unclassified {s : PState} (hs : s = .notElf ∨ s = .badElf) (v : SubjValue) :
    patternMatches v s = false := by
  unfold patternMatches
  rcases hs with rfl | rfl <;> split <;> simp

theorem PState.settled_of_unclassified {s : PState} (hs : s = .notElf ∨ s = .badElf) : s.Settled := by
  rcases hs with rfl | rfl <;> decide

/-! ### Stable states -/

/-- A pattern state from which no test changes what later tests answer: it is neither `FULL`
with `HAS_ERROR`, whose test reports an error and leaves `BAD_ELF`, nor `COLLECTING` for a
static ELF program, whose test answers as `STATIC_REOPEN` and leaves that state. -/
def ProcInfo.Stable (p : ProcInfo) : Prop :=
  ¬(p.state = .full ∧ p.elfInfo &&& HAS_ERROR ≠ 0) ∧
    ¬(p.elfInfo &&& IS_ELF ≠ 0 ∧ p.state = .collecting ∧ p.elfInfo &&& HAS_DYNAMIC = 0)

instance (p : ProcInfo) : Decidable p.Stable := inferInstanceAs (Decidable (¬_ ∧ ¬_))

/-- Every pattern test on an event of the mask `etype` answers the same from `p` as from `q`. -/
def ProcInfo.Agree (etype : BitVec 32) (p q : ProcInfo) : Prop :=
  ∀ s, (subjPatternTest s etype p).1 = (subjPatternTest s etype q).1

section Stable

variable {e : Event} {etype : BitVec 32} {p q : ProcInfo}

theorem ProcInfo.stable_of_settled (h : p.state.Settled) : p.Stable :=
  ⟨fun hf => absurd (hf.1 ▸ h) (by decide), fun hc => absurd (hc.2.1 ▸ h) (by decide)⟩

theorem PState.settled_of_not_lt {st : PState} (hlt : ¬st.toNat < PState.full.toNat)
    (hf : st ≠ .full) : st.Settled := by
  cases st <;> first | decide | exact absurd rfl hf | exact absurd (by decide) hlt

/-- A test that, for every field, compares with a settled state `t` leaves a stable state
at which every later test answers as it does from `p`. -/
theorem subjPatternTest_stable_of_decision {t : PState} (ht : t.Settled)
    (h : ∀ s, subjPatternTest s etype p = makeDecision s { p with state := t }) (s : SubjectAttr) :
    (subjPatternTest s etype p).2.Stable ∧ (subjPatternTest s etype p).2.Agree etype p := by
  rw [h s, makeDecision_snd]
  refine ⟨ProcInfo.stable_of_settled ht, fun s' => ?_⟩
  rw [subjPatternTest_settled ht, h s']
  rfl

/-- **One test from a stable state changes no later answer.** It leaves a stable state, at
which every test on the same event answers as it does from the state before. -/
theorem subjPatternTest_stable (hp : p.Stable) (s : SubjectAttr) (etype : BitVec 32) :
    (subjPatternTest s etype p).2.Stable ∧ (subjPatternTest s etype p).2.Agree etype p := by
  by_cases hlt : p.state.toNat < PState.full.toNat
  · by_cases h0 : p.elfInfo = 0
    · -- not an ELF file: `NOT_ELF`, which matches no pattern
      refine subjPatternTest_stable_of_decision (t := .notElf) (by decide) (fun s => ?_) s
      rw [subjPatternTest, if_pos hlt, if_pos h0, makeDecision,
        patternMatches_unclassified (.inl rfl)]
      rfl
    by_cases hsp : p.state = .staticPartial
    · -- `STATIC_PARTIAL` answers from itself and only releases the paths
      have heq : ∀ q : ProcInfo, q.state = .staticPartial → q.elfInfo = p.elfInfo →
          ∀ s, subjPatternTest s etype q = makeDecision s q := fun q hq he s => by
        rw [subjPatternTest, if_pos (by rw [hq]; decide), if_neg (he ▸ h0),
          if_neg fun h => absurd (hq.symm.trans h.2.1) (by decide), if_pos hq]
      rw [heq p hsp rfl s, makeDecision_snd]
      refine ⟨⟨fun h => absurd (hsp.symm.trans h.1) (by decide),
        fun h => absurd (hsp.symm.trans h.2.1) (by decide)⟩, fun s' => ?_⟩
      rw [heq (clearProcInfo p) hsp rfl s', heq p hsp rfl s']
      rfl
    by_cases hld : etype &&& FAN_OPEN_EXEC_PERM ≠ 0 ∧ p.path1 = some SYSTEM_LD_SO
    · -- an execute of the runtime linker: `LD_SO`
      exact subjPatternTest_stable_of_decision (t := .ldSo) (by decide) (fun s => by
        rw [subjPatternTest, if_pos hlt, if_neg h0, if_neg hp.2, if_neg hsp, if_pos hld]) s
    · -- not enough information yet: nothing changes
      have h : subjPatternTest s etype p = (0, p) := by
        rw [subjPatternTest, if_pos hlt, if_neg h0, if_neg hp.2, if_neg hsp, if_neg hld]
      rw [h]
      exact ⟨hp, fun _ => rfl⟩
  by_cases hf : p.state = .full
  · -- `FULL` without an error: classified by the first path
    have he : ¬(p.elfInfo &&& HAS_ERROR ≠ 0) := fun he => hp.1 ⟨hf, he⟩
    exact subjPatternTest_stable_of_decision
      (t := if p.path1 = some SYSTEM_LD_SO then .ldSo else .normal) (by split <;> decide)
      (fun s => by rw [subjPatternTest, if_neg hlt, if_pos hf, if_neg he]) s
  · -- settled: the classification stays
    exact subjPatternTest_stable_of_decision (t := p.state) (PState.settled_of_not_lt hlt hf)
      (fun s => by rw [subjPatternTest, if_neg hlt, if_neg hf]) s

theorem checkSubjectLoop_stable (hp : p.Stable) (fs : List SubjectAttr) :
    (checkSubjectLoop e fs p).2.Stable ∧ (checkSubjectLoop e fs p).2.Agree e.type p := by
  induction fs generalizing p with
  | nil => exact ⟨hp, fun _ => rfl⟩
  | cons f rest ih =>
    rw [checkSubjectLoop]
    by_cases hf : f.type = .pattern
    · obtain ⟨h1, h2⟩ := subjPatternTest_stable hp f e.type
      rw [if_pos hf]
      dsimp only
      split_ifs
      · exact ⟨h1, h2⟩
      · exact ⟨h1, h2⟩
      · obtain ⟨h3, h4⟩ := ih h1
        exact ⟨h3, fun s => (h4 s).trans (h2 s)⟩
    · rw [if_neg hf]
      split_ifs
      · exact ih hp
      · exact ⟨hp, fun _ => rfl⟩

/-- From stable states at which every test answers alike, `check_subject` answers alike. -/
theorem checkSubjectLoop_agree (hp : p.Stable) (hq : q.Stable) (hpq : p.Agree e.type q)
    (fs : List SubjectAttr) : (checkSubjectLoop e fs p).1 = (checkSubjectLoop e fs q).1 := by
  induction fs generalizing p q with
  | nil => rfl
  | cons f rest ih =>
    rw [checkSubjectLoop, checkSubjectLoop]
    by_cases hf : f.type = .pattern
    · obtain ⟨hp1, hp2⟩ := subjPatternTest_stable hp f e.type
      obtain ⟨hq1, hq2⟩ := subjPatternTest_stable hq f e.type
      rw [if_pos hf, if_pos hf]
      dsimp only
      rw [hpq f]
      split_ifs
      · rfl
      · rfl
      · exact ih hp1 hq1 fun s => (hp2 s).trans ((hpq s).trans (hq2 s).symm)
    · rw [if_neg hf, if_neg hf]
      split_ifs
      · exact ih hp hq hpq
      · rfl

theorem ruleEvaluate_stable (hp : p.Stable) (r : LNode) :
    (ruleEvaluate r e p).2.Stable ∧ (ruleEvaluate r e p).2.Agree e.type p := by
  obtain ⟨h1, h2⟩ := checkSubjectLoop_stable (e := e) hp r.s
  unfold ruleEvaluate checkSubject
  dsimp only
  split_ifs
  · exact ⟨hp, fun _ => rfl⟩
  all_goals exact ⟨h1, h2⟩

theorem ruleEvaluate_agree (hp : p.Stable) (hq : q.Stable) (hpq : p.Agree e.type q) (r : LNode) :
    (ruleEvaluate r e p).1 = (ruleEvaluate r e q).1 := by
  have h := checkSubjectLoop_agree hp hq hpq r.s
  unfold ruleEvaluate checkSubject
  dsimp only
  rw [h]
  split_ifs <;> rfl

/-- From a stable state, the first-match loop gives the decision of the first rule that,
evaluated alone from that state, has an opinion. -/
theorem firstMatch_stable (hp : p.Stable) (rs : List LNode) :
    (firstMatch e rs p).1 =
      ((rs.map fun r => (ruleEvaluate r e p).1).find? (· ≠ NO_OPINION)).getD NO_OPINION := by
  induction rs generalizing p with
  | nil => rfl
  | cons r rs ih =>
    obtain ⟨hs, ha⟩ := ruleEvaluate_stable (e := e) hp r
    rw [firstMatch]
    split_ifs with hd
    · rw [ih hs, List.map_cons, List.find?_cons_of_neg _ (by simpa using hd)]
      congr 2
      exact List.map_congr_left fun r' _ => ruleEvaluate_agree hs hp ha r'
    · rw [List.map_cons, List.find?_cons_of_pos _ (by simpa using hd)]
      rfl

end Stable

/-- **The verdict of a later rule.** When the earlier rule has no pattern field, or the state
is stable (neither `FULL` with `HAS_ERROR` nor `COLLECTING` for a static ELF program), the
later rule gives the verdict it would give from the earlier state; and from a stable state
the first-match loop gives the decision of the first rule that, evaluated alone from that
state, has an opinion. -/
theorem ruleEvaluate_independent (r₁ r₂ : LNode) (e : Event) (p : ProcInfo)
    (h : (∀ f ∈ r₁.s, f.type ≠ .pattern) ∨ p.Stable) :
    (ruleEvaluate r₂ e (ruleEvaluate r₁ e p).2).1 = (ruleEvaluate r₂ e p).1 ∧
      (p.Stable → ∀ rs, (firstMatch e rs p).1 =
        ((rs.map fun r => (ruleEvaluate r e p).1).find? (· ≠ NO_OPINION)).getD NO_OPINION) := by
  refine ⟨?_, fun hp rs => firstMatch_stable hp rs⟩
  rcases h with h | h
  · rw [ruleEvaluate_noPattern_state h]
  · obtain ⟨hs, ha⟩ := ruleEvaluate_stable (e := e) h r₁
    exact ruleEvaluate_agree hs h ha r₂

/-- The rule `allow perm=any pattern=ld_so : all`, evaluated twice from `FULL` without an
error, gives the same verdict the second time; and from there the first match over it and
`deny perm=any all : all` is its decision. -/
theorem ruleEvaluate_independent_normal :
    let r : LNode := { d := ALLOW, a := .anyAcc, s := [⟨.pattern, .val PATTERN_LD_SO_VAL⟩],
                       o := [⟨.allObj, "", 0⟩], format := .ruleFmtColon }
    let e : Event := ⟨0, fun _ => none, fun _ => none⟩
    let p : ProcInfo := ⟨.full, IS_ELF ||| HAS_DYNAMIC, some "/usr/bin/ls", none⟩
    ((∀ f ∈ r.s, f.type ≠ .pattern) ∨ p.Stable) ∧
      (ruleEvaluate r e (ruleEvaluate r e p).2).1 = (ruleEvaluate r e p).1 ∧
      (p.Stable → ∀ rs, (firstMatch e rs p).1 =
        ((rs.map fun r => (ruleEvaluate r e p).1).find? (· ≠ NO_OPINION)).getD NO_OPINION) :=
  ⟨.inr (by decide), ruleEvaluate_independent _ _ _ _ (.inr (by decide))⟩

/-- An analysis error is a match once: from `FULL` with `HAS_ERROR`, the rule
`allow perm=any pattern=ld_so : all` allows the event, and evaluated again from the state it
left, `BAD_ELF`, it has no opinion. -/
theorem ruleEvaluate_error_then_no_opinion :
    let r : LNode := { d := ALLOW, a := .anyAcc, s := [⟨.pattern, .val PATTERN_LD_SO_VAL⟩],
                       o := [⟨.allObj, "", 0⟩], format := .ruleFmtColon }
    let e : Event := ⟨0, fun _ => none, fun _ => none⟩
    let p : ProcInfo := ⟨.full, IS_ELF ||| HAS_DYNAMIC ||| HAS_ERROR, some "/usr/bin/ls", none⟩
    nvSplit daemonTables "allow perm=any pattern=ld_so : all" 1 = .ret 0 r [] ∧
      (ruleEvaluate r e p).1 = ALLOW ∧ (ruleEvaluate r e (ruleEvaluate r e p).2).1 = NO_OPINION := by
  decide

/-- From a settled state, the first-match loop gives the decision of the first rule that,
evaluated alone from that state, has an opinion. -/
theorem firstMatch_settled {p : ProcInfo} (hp : p.state.Settled) (e : Event) (rs : List LNode) :
    (firstMatch e rs p).1 =
      ((rs.map fun r => (ruleEvaluate r e p).1).find? (· ≠ NO_OPINION)).getD NO_OPINION := by
  induction rs generalizing p with
  | nil => rfl
  | cons r rs ih =>
    obtain ⟨-, hs⟩ := ruleEvaluate_settled (e := e) hp rfl r
    have hrest := ih (hs ▸ hp)
    rw [firstMatch]
    split_ifs with hd
    · rw [hrest, List.map_cons, List.find?_cons_of_neg _ (by simpa using hd)]
      congr 2
      exact List.map_congr_left fun r' _ => (ruleEvaluate_settled hp hs r').1.symm
    · rw [List.map_cons, List.find?_cons_of_pos _ (by simpa using hd)]
      rfl

/-- The rule `allow perm=any pattern=ld_so : all` first and a rule without a pattern field
after it, from `LD_SO`: the first match is the first rule's decision. -/
theorem firstMatch_settled_ldSo :
    let rs : List LNode :=
      [{ d := ALLOW, a := .anyAcc, s := [⟨.pattern, .val PATTERN_LD_SO_VAL⟩], o := [⟨.allObj, "", 0⟩],
         format := .ruleFmtColon },
       { d := DENY, a := .anyAcc, s := [⟨.allSubj, .unset⟩], o := [⟨.allObj, "", 0⟩],
         format := .ruleFmtColon }]
    let e : Event := ⟨0, fun _ => none, fun _ => none⟩
    let p : ProcInfo := ⟨.ldSo, IS_ELF ||| HAS_DYNAMIC, none, none⟩
    p.state.Settled ∧
      (firstMatch e rs p).1 = ((rs.map fun r => (ruleEvaluate r e p).1).find? (· ≠ NO_OPINION)).getD
        NO_OPINION :=
  ⟨by decide, firstMatch_settled (by decide) _ _⟩

/-! ### Pattern tests that answer `0` -/

section Refused

variable {e : Event} {p q : ProcInfo}

/-- When every pattern test from `p` answers `0` and leaves `q`, a subject list with a pattern
field does not match: the loop stops at a field that fails, leaving `p`, or at the first
pattern field, leaving `q`. -/
theorem checkSubjectLoop_pattern_refused (hp : ∀ s, subjPatternTest s e.type p = (0, q)) :
    ∀ fs : List SubjectAttr, (∃ f ∈ fs, f.type = .pattern) →
      checkSubjectLoop e fs p = (0, p) ∨ checkSubjectLoop e fs p = (0, q)
  | [], ⟨_, hf, _⟩ => absurd hf (List.not_mem_nil _)
  | f :: rest, ⟨g, hg, hgp⟩ => by
    rw [checkSubjectLoop]
    by_cases hf : f.type = .pattern
    · rw [if_pos hf]
      dsimp only
      rw [hp]
      exact .inr rfl
    · rw [if_neg hf]
      have hrest : ∃ g ∈ rest, g.type = .pattern := by
        rcases List.mem_cons.1 hg with rfl | hg
        · exact absurd hgp hf
        · exact ⟨g, hg, hgp⟩
      split_ifs
      · exact checkSubjectLoop_pattern_refused hp rest hrest
      · exact .inl rfl

/-- Then a rule with a pattern field has no opinion, and leaves `p` or `q`. -/
theorem ruleEvaluate_pattern_refused (hp : ∀ s, subjPatternTest s e.type p = (0, q)) (r : LNode)
    (hr : ∃ f ∈ r.s, f.type = .pattern) :
    (ruleEvaluate r e p).1 = NO_OPINION ∧ ((ruleEvaluate r e p).2 = p ∨ (ruleEvaluate r e p).2 = q) := by
  unfold ruleEvaluate checkSubject
  rcases checkSubjectLoop_pattern_refused hp r.s hr with h | h <;> rw [h] <;>
    by_cases ha : checkAccess r e = 0 <;> simp [ha]

end Refused

/-! ### A failed classification -/

section Unclassified

variable {e : Event} {p q : ProcInfo}

/-- From `NOT_ELF` or `BAD_ELF`, every pattern test answers `0` and only releases the paths. -/
theorem subjPatternTest_unclassified (hp : p.state = .notElf ∨ p.state = .badElf) (s : SubjectAttr)
    (etype : BitVec 32) : subjPatternTest s etype p = (0, clearProcInfo p) := by
  rw [subjPatternTest_settled (PState.settled_of_unclassified hp), patternMatches_unclassified hp]
  rfl

/-- From `NOT_ELF` or `BAD_ELF`, a rule with a pattern field has no opinion. -/
theorem ruleEvaluate_unclassified (hp : p.state = .notElf ∨ p.state = .badElf) (r : LNode)
    (hr : ∃ f ∈ r.s, f.type = .pattern) : (ruleEvaluate r e p).1 = NO_OPINION :=
  (ruleEvaluate_pattern_refused (fun s => subjPatternTest_unclassified hp s e.type) r hr).1

/-- **A failed classification disables the pattern rules.** From `NOT_ELF` or `BAD_ELF`, no
rule with a pattern field has an opinion, and the first-match loop over any rules gives the
decision it gives over the rules without a pattern field. -/
theorem firstMatch_unclassified (rs : List LNode) (hp : p.state = .notElf ∨ p.state = .badElf) :
    (∀ r ∈ rs, (∃ f ∈ r.s, f.type = .pattern) → (ruleEvaluate r e p).1 = NO_OPINION) ∧
    (firstMatch e rs p).1 = (firstMatch e (rs.filter fun r => r.s.all (·.type ≠ .pattern)) p).1 := by
  refine ⟨fun r _ => ruleEvaluate_unclassified hp r, ?_⟩
  suffices h : ∀ p q : ProcInfo, (p.state = .notElf ∨ p.state = .badElf) → q.state = p.state →
      (firstMatch e rs p).1 = (firstMatch e (rs.filter fun r => r.s.all (·.type ≠ .pattern)) q).1 from
    h p p hp rfl
  induction rs with
  | nil => exact fun _ _ _ _ => rfl
  | cons r rs ih =>
    intro p q hp hq
    have hs := PState.settled_of_unclassified hp
    obtain ⟨hd, hps⟩ := ruleEvaluate_settled (e := e) hs hq r
    have hqs := (ruleEvaluate_settled (e := e) (hq ▸ hs) rfl r).2
    by_cases hr : r.s.all (·.type ≠ .pattern)
    · rw [List.filter_cons, if_pos hr, firstMatch, firstMatch, ← hd]
      split_ifs
      · exact ih _ _ (hps ▸ hp) (hqs.trans (hq.trans hps.symm))
      · exact hd
    · have hpat : ∃ f ∈ r.s, f.type = .pattern := by simpa using hr
      rw [List.filter_cons, if_neg hr, firstMatch, if_pos (ruleEvaluate_unclassified hp r hpat)]
      exact ih _ _ (hps ▸ hp) (hq.trans hps.symm)

/-- From `NOT_ELF`, the rule `allow perm=any pattern=static : all` has no opinion, and the
decision is that of the rule after it, which has no pattern field. -/
theorem firstMatch_unclassified_notElf :
    let rs : List LNode :=
      [{ d := ALLOW, a := .anyAcc, s := [⟨.pattern, .val PATTERN_STATIC_VAL⟩], o := [⟨.allObj, "", 0⟩],
         format := .ruleFmtColon },
       { d := DENY, a := .anyAcc, s := [⟨.allSubj, .unset⟩], o := [⟨.allObj, "", 0⟩],
         format := .ruleFmtColon }]
    let e : Event := ⟨0, fun _ => none, fun _ => none⟩
    let p : ProcInfo := ⟨.notElf, 0, none, none⟩
    (p.state = .notElf ∨ p.state = .badElf) ∧
      ((∀ r ∈ rs, (∃ f ∈ r.s, f.type = .pattern) → (ruleEvaluate r e p).1 = NO_OPINION) ∧
        (firstMatch e rs p).1 = (firstMatch e (rs.filter fun r => r.s.all (·.type ≠ .pattern)) p).1) :=
  ⟨.inl rfl, firstMatch_unclassified _ (.inl rfl)⟩

end Unclassified

/-! ### A static program before its reopen -/

section Static

variable {e : Event} {p : ProcInfo}

/-- The first pattern test of a static ELF program, in `COLLECTING`, moves it to
`STATIC_REOPEN` and answers from there. -/
theorem subjPatternTest_static_first (hc : p.state = .collecting) (helf : p.elfInfo &&& IS_ELF ≠ 0)
    (hdyn : p.elfInfo &&& HAS_DYNAMIC = 0) (s : SubjectAttr) (etype : BitVec 32) :
    subjPatternTest s etype p = makeDecision s { p with state := .staticReopen } := by
  have h0 : p.elfInfo ≠ 0 := fun h => helf (by rw [h]; rfl)
  rw [subjPatternTest, if_pos (by rw [hc]; decide), if_neg h0, if_pos ⟨helf, hc, hdyn⟩]

/-- From `STATIC_REOPEN` with the paths released, every pattern test answers `0` and changes
nothing: no branch of `subj_pattern_test` leaves that state. -/
theorem subjPatternTest_staticReopen (hs : p.state = .staticReopen) (h0 : p.elfInfo ≠ 0)
    (hpath : p.path1 = none) (s : SubjectAttr) (etype : BitVec 32) :
    subjPatternTest s etype p = (0, p) := by
  rw [subjPatternTest, if_pos (by rw [hs]; decide), if_neg h0,
    if_neg fun h => absurd (hs.symm.trans h.2.1) (by decide), if_neg (by rw [hs]; decide),
    if_neg fun h => absurd (hpath.symm.trans h.2) (by decide)]

/-- From a state every pattern test leaves as it is with the answer `0`, the first-match loop
decides, and leaves the state, as over its rules without a pattern field. -/
theorem firstMatch_pattern_refused (hp : ∀ s, subjPatternTest s e.type p = (0, p)) (rs : List LNode) :
    firstMatch e rs p = firstMatch e (rs.filter fun r => r.s.all (·.type ≠ .pattern)) p := by
  induction rs with
  | nil => rfl
  | cons r rs ih =>
    by_cases hr : r.s.all (·.type ≠ .pattern)
    · have hst := ruleEvaluate_noPattern_state (by simpa using hr) e p
      rw [List.filter_cons, if_pos hr, firstMatch, firstMatch, hst, ih]
    · obtain ⟨hno, hst⟩ := ruleEvaluate_pattern_refused hp r (by simpa using hr)
      rw [List.filter_cons, if_neg hr, firstMatch, if_pos hno, hst.elim id id, ih]

/-- **A static program matches a pattern once.** The first pattern test of a static ELF
program in `COLLECTING` answers as `STATIC_REOPEN` does (a `pattern=static` field matches)
and leaves `STATIC_REOPEN`; from there, until an event outside `rules.c` moves the state,
no rule with a pattern field has an opinion, and the first-match loop over any rules decides
as over its rules without a pattern field. -/
theorem firstMatch_after_static_test (hc : p.state = .collecting) (helf : p.elfInfo &&& IS_ELF ≠ 0)
    (hdyn : p.elfInfo &&& HAS_DYNAMIC = 0) (f : SubjectAttr) (rs : List LNode) :
    (subjPatternTest f e.type p).1 = (if patternMatches f.value .staticReopen then 1 else 0) ∧
    (subjPatternTest f e.type p).2.state = .staticReopen ∧
    firstMatch e rs (subjPatternTest f e.type p).2 =
      firstMatch e (rs.filter fun r => r.s.all (·.type ≠ .pattern)) (subjPatternTest f e.type p).2 := by
  have h0 : p.elfInfo ≠ 0 := fun h => helf (by rw [h]; rfl)
  rw [subjPatternTest_static_first hc helf hdyn, makeDecision_snd]
  exact ⟨rfl, rfl, firstMatch_pattern_refused
    (fun s => subjPatternTest_staticReopen (p := clearProcInfo { p with state := .staticReopen })
      rfl h0 rfl s e.type) rs⟩

/-- A static program run by uid `0`: after `deny perm=any pattern=static uid=1000 : all`, whose
pattern test matched and whose uid did not, the rule `deny perm=any pattern=static : all` has no
opinion, while alone it denies. -/
theorem firstMatch_static_deny_bypass :
    let p : ProcInfo := ⟨.collecting, IS_ELF, some "/usr/bin/busybox", none⟩
    let e : Event := ⟨FAN_OPEN_EXEC_PERM, fun t => if t = .uid then some (.val 0) else none, fun _ => none⟩
    let f : SubjectAttr := ⟨.pattern, .val PATTERN_STATIC_VAL⟩
    let r₁ : LNode := { d := DENY, a := .anyAcc, s := [f, ⟨.uid, .val 1000⟩], o := [⟨.allObj, "", 0⟩],
                        format := .ruleFmtColon }
    let r₂ : LNode := { d := DENY, a := .anyAcc, s := [f], o := [⟨.allObj, "", 0⟩], format := .ruleFmtColon }
    ((subjPatternTest f e.type p).1 = (if patternMatches f.value .staticReopen then 1 else 0) ∧
      (subjPatternTest f e.type p).2.state = .staticReopen ∧
      firstMatch e [r₂] (subjPatternTest f e.type p).2 =
        firstMatch e ([r₂].filter fun r => r.s.all (·.type ≠ .pattern)) (subjPatternTest f e.type p).2) ∧
    nvSplit daemonTables "deny perm=any pattern=static uid=1000 : all" 1 = .ret 0 r₁ [] ∧
    nvSplit daemonTables "deny perm=any pattern=static : all" 1 = .ret 0 r₂ [] ∧
    (firstMatch e [r₁, r₂] p).1 = NO_OPINION ∧ (firstMatch e [r₂] p).1 = DENY :=
  ⟨firstMatch_after_static_test rfl (by decide) (by decide) _ _, by decide, by decide, by decide,
    by decide⟩

end Static

/-! ### The state only moves forward -/

theorem checkSubjectLoop_forward (e : Event) (s : List SubjectAttr) (p : ProcInfo) :
    p.state.toNat ≤ (checkSubjectLoop e s p).2.state.toNat := by
  induction s generalizing p with
  | nil => exact le_rfl
  | cons f rest ih =>
    have hf := subjPatternTest_forward f e.type p
    rw [checkSubjectLoop]
    dsimp only
    split_ifs
    all_goals first | exact hf | exact le_rfl | exact hf.trans (ih _) | exact ih p

theorem ruleEvaluate_forward (r : LNode) (e : Event) (p : ProcInfo) :
    p.state.toNat ≤ (ruleEvaluate r e p).2.state.toNat := by
  have h := checkSubjectLoop_forward e r.s p
  unfold ruleEvaluate checkSubject
  dsimp only
  split_ifs <;> simp [h]

/-- **The pattern state only moves forward.** Over the first-match loop on any rules, the
state's position in `state_t` never decreases, and a settled state keeps its class. -/
theorem firstMatch_state_forward (e : Event) (rs : List LNode) (p : ProcInfo) :
    p.state.toNat ≤ (firstMatch e rs p).2.state.toNat ∧
      (p.state.Settled → (firstMatch e rs p).2.state = p.state) := by
  induction rs generalizing p with
  | nil => exact ⟨le_rfl, fun _ => rfl⟩
  | cons r rs ih =>
    rw [firstMatch]
    split_ifs
    · obtain ⟨h1, h2⟩ := ih (ruleEvaluate r e p).2
      refine ⟨(ruleEvaluate_forward r e p).trans h1, fun hp => ?_⟩
      have hs := (ruleEvaluate_settled (e := e) hp rfl r).2
      exact (h2 (hs ▸ hp)).trans hs
    · exact ⟨ruleEvaluate_forward r e p, fun hp => (ruleEvaluate_settled hp rfl r).2⟩

end Fapolicyd
