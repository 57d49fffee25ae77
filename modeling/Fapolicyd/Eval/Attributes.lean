import Fapolicyd.Eval.Evaluate

/-!
# What a rule reads of an event

`rule_evaluate` reads an event through the accessors `get_subj_attr` and
`get_obj_attr`, and skips a field whose attribute the accessor does not
return: `check_subject` goes on when `subj == NULL`, `check_object` when
`obj == NULL`. The trust of the subject and of the object is read the same
way, and a missing trust attribute reads as untrusted. A pattern field does
not look at the attributes at all.

## What is proved

* `ruleEvaluate_fewer_attributes` — missing attributes never stop a rule from
  matching. An event that carries the mask of another and only some of its
  attributes is given, by every rule that gives the fuller event a decision,
  the same decision, and the pattern state ends the same. This holds for a deny
  rule as for an allow rule.
* `ruleEvaluate_all_subjects` — a rule whose subject fields are all `all` gives
  every subject the same verdict and leaves the same pattern state.
* `firstMatch_filter_access` — `check_access` comes first, so a rule whose
  access does not match the event is passed over without a test of the pattern
  detector. The first-match loop gives the same decision, and leaves the same
  state, on the rules whose access matches.
-/

namespace Fapolicyd

/-! ### Events with fewer attributes -/

/-- The event `e'` has the mask of `e` and some of its attributes: each accessor returns on
`e'` what it returns on `e`, or `NULL`. -/
structure Event.Fewer (e' e : Event) : Prop where
  type : e'.type = e.type
  subj : ∀ t, e'.subj t = none ∨ e'.subj t = e.subj t
  obj : ∀ t, e'.obj t = none ∨ e'.obj t = e.obj t

section Fewer

variable {e' e : Event}

theorem Event.Fewer.subjTrusted (h : e'.Fewer e) (ht : isSubjTrusted e' = true) :
    isSubjTrusted e = true := by
  unfold isSubjTrusted at ht ⊢
  rcases h.subj .subjTrust with hn | hs
  · rw [hn] at ht; exact absurd ht Bool.false_ne_true
  · rwa [hs] at ht

theorem Event.Fewer.objTrusted (h : e'.Fewer e) (ht : isObjTrusted e' = true) :
    isObjTrusted e = true := by
  unfold isObjTrusted at ht ⊢
  rcases h.obj .objTrust with hn | hs
  · rw [hn] at ht; exact absurd ht Bool.false_ne_true
  · rwa [hs] at ht

/-- A directory test that passes with a trust flag passes with a flag that is set less often. -/
theorem dirTest_trust_anti {v : String} {len : Nat} {path : String} {t t' : Bool}
    (ht : t' = true → t = true) (h : dirTest v len path t ≠ 0) : dirTest v len path t' ≠ 0 := by
  cases t' with
  | true => rwa [ht rfl] at h
  | false =>
    unfold dirTest at h ⊢
    by_cases he : len = 8 ∧ strcmp v "execdirs" = 0
    · rwa [if_pos he] at h ⊢
    rw [if_neg he] at h ⊢
    by_cases hs : len = 10 ∧ strcmp v "systemdirs" = 0
    · rwa [if_pos hs] at h ⊢
    rw [if_neg hs] at h ⊢
    by_cases hu : len = 10 ∧ strcmp v "untrusted" = 0
    · rw [if_pos hu]; decide
    rwa [if_neg hu] at h ⊢

theorem subjFieldOk_fewer (h : e'.Fewer e) {f : SubjectAttr} (hf : subjFieldOk e f = true) :
    subjFieldOk e' f = true := by
  have ht := h.subjTrusted
  unfold subjFieldOk at hf ⊢
  by_cases ha : f.type = .allSubj
  · rw [if_pos ha]
  rw [if_neg ha] at hf ⊢
  rcases h.subj f.type with hn | hs
  · rw [hn]
  rw [hs]
  revert hf ht
  generalize isSubjTrusted e' = t'
  generalize isSubjTrusted e = t
  generalize e.subj f.type = a
  intro hf ht
  rcases a with _ | subj
  · rfl
  dsimp only at hf ⊢
  by_cases hs : f.type.isStr
  · rw [if_pos hs] at hf ⊢
    generalize subj.str? = b at hf ⊢
    rcases b with _ | str
    · rfl
    dsimp only at hf ⊢
    by_cases hd : f.type = .exeDir
    · rw [if_pos hd] at hf ⊢
      exact decide_eq_true (dirTest_trust_anti ht (of_decide_eq_true hf))
    rw [if_neg hd] at hf ⊢
    by_cases hx : f.type = .exe ∧ strcmp f.value.strD "untrusted" = 0
    · rw [if_pos hx] at hf ⊢
      cases t' with
      | false => rfl
      | true => rwa [ht rfl] at hf
    rwa [if_neg hx] at hf ⊢
  rwa [if_neg hs] at hf ⊢

theorem objFieldOk_fewer (h : e'.Fewer e) {paired : Option SubjectAttr} {f : ObjectAttr}
    (hf : objFieldOk e paired f = true) : objFieldOk e' paired f = true := by
  have ht := h.objTrusted
  unfold objFieldOk at hf ⊢
  by_cases ha : f.type = .allObj
  · rw [if_pos ha]
  rw [if_neg ha] at hf ⊢
  rcases h.obj f.type with hn | hs
  · rw [hn]
  rw [hs]
  revert hf ht
  generalize isObjTrusted e' = t'
  generalize isObjTrusted e = t
  generalize e.obj f.type = a
  intro hf ht
  rcases a with _ | obj
  · rfl
  dsimp only at hf ⊢
  by_cases hn : obj.o = none ∧ f.type ≠ .objTrust
  · rw [if_pos hn]
  rw [if_neg hn] at hf ⊢
  by_cases hd : f.type = .odir
  · rw [if_pos hd] at hf ⊢
    exact decide_eq_true (dirTest_trust_anti ht (of_decide_eq_true hf))
  rw [if_neg hd] at hf ⊢
  by_cases hu : f.type = .path ∧ paired.any SubjectAttr.isUntrustedExe
  · rw [if_pos hu] at hf ⊢
    cases t' with
    | false => rfl
    | true => rwa [ht rfl] at hf
  rwa [if_neg hu] at hf ⊢

theorem checkSubjectLoop_fewer (h : e'.Fewer e) :
    ∀ (s : List SubjectAttr) (p : ProcInfo), (checkSubjectLoop e s p).1 ≠ 0 →
      checkSubjectLoop e' s p = checkSubjectLoop e s p
  | [], _, _ => rfl
  | f :: rest, p, hm => by
    simp only [checkSubjectLoop, h.type] at hm ⊢
    by_cases hp : f.type = .pattern
    · simp only [if_pos hp] at hm ⊢
      split_ifs at hm ⊢
      · exact absurd rfl hm
      · rfl
      · exact checkSubjectLoop_fewer h rest _ hm
    · simp only [if_neg hp] at hm ⊢
      by_cases hok : subjFieldOk e f
      · rw [if_pos hok] at hm
        rw [if_pos (subjFieldOk_fewer h hok), if_pos hok]
        exact checkSubjectLoop_fewer h rest p hm
      · rw [if_neg hok] at hm
        exact absurd rfl hm

theorem checkObjectLoop_fewer (h : e'.Fewer e) (r : LNode) :
    ∀ cnt (o : List ObjectAttr), checkObjectLoop r e cnt o ≠ 0 → checkObjectLoop r e' cnt o ≠ 0
  | _, [], hm => hm
  | cnt, f :: rest, hm => by
    rw [checkObjectLoop] at hm ⊢
    by_cases hok : objFieldOk e r.s[cnt]? f
    · rw [if_pos hok] at hm
      rw [if_pos (objFieldOk_fewer h hok)]
      exact checkObjectLoop_fewer h r _ rest hm
    · rw [if_neg hok] at hm
      exact absurd rfl hm

/-- **Missing attributes never stop a rule from matching.** A rule that gives an event a
decision gives every event with the same mask and fewer attributes the same decision, and
leaves the same pattern state. -/
theorem ruleEvaluate_fewer_attributes {e' e : Event} (h : e'.Fewer e) (r : LNode) (p : ProcInfo)
    (hm : (ruleEvaluate r e p).1 ≠ NO_OPINION) : ruleEvaluate r e' p = ruleEvaluate r e p := by
  have hacc : checkAccess r e' = checkAccess r e := by simp only [checkAccess, h.type]
  unfold ruleEvaluate checkSubject checkObject at hm ⊢
  dsimp only at hm ⊢
  split_ifs at hm with ha hs ho <;> try exact absurd rfl hm
  simp only [hacc, checkSubjectLoop_fewer h r.s p hs, if_neg ha, if_neg hs, if_neg ho,
    if_neg (checkObjectLoop_fewer h r 0 r.o ho)]

/-- The rule `deny perm=any uid=0 : path=/etc/shadow` denies an open of `/etc/shadow` by uid `0`,
and denies it as well when the accessor returns no subject attribute at all. -/
theorem ruleEvaluate_fewer_attributes_uid :
    let r : LNode := { d := DENY, a := .anyAcc, s := [⟨.uid, .val 0⟩], o := [⟨.path, "/etc/shadow", 0⟩],
                       format := .ruleFmtColon }
    let e : Event := ⟨0, fun t => if t = .uid then some (.val 0) else none,
      fun t => if t = .path then some ⟨some "/etc/shadow", 0⟩ else none⟩
    let p : ProcInfo := ⟨.normal, IS_ELF ||| HAS_DYNAMIC, none, none⟩
    Event.Fewer { e with subj := fun _ => none } e ∧ (ruleEvaluate r e p).1 ≠ NO_OPINION ∧
      ruleEvaluate r { e with subj := fun _ => none } p = ruleEvaluate r e p := by
  intro r e p
  have hf : Event.Fewer { e with subj := fun _ => none } e := ⟨rfl, fun _ => .inl rfl, fun _ => .inr rfl⟩
  have hm : (ruleEvaluate r e p).1 ≠ NO_OPINION := by decide
  exact ⟨hf, hm, ruleEvaluate_fewer_attributes hf r p hm⟩

end Fewer

/-! ### The wildcard subject -/

/-- `check_object` reads the event only through its object attributes. -/
theorem checkObjectLoop_obj_eq {e' e : Event} (h : e'.obj = e.obj) (r : LNode) :
    ∀ cnt (o : List ObjectAttr), checkObjectLoop r e' cnt o = checkObjectLoop r e cnt o
  | _, [] => rfl
  | cnt, f :: rest => by
    have hf : objFieldOk e' r.s[cnt]? f = objFieldOk e r.s[cnt]? f := by
      simp only [objFieldOk, isObjTrusted, h]
    rw [checkObjectLoop, checkObjectLoop, hf, checkObjectLoop_obj_eq h r _ rest]

/-- **`all` matches every subject.** A rule whose subject fields are all `all` gives the same
verdict, and leaves the same pattern state, whatever attributes the subject has. -/
theorem ruleEvaluate_all_subjects (r : LNode) (hr : ∀ f ∈ r.s, f.type = .allSubj) (e : Event)
    (subj : SubjType → Option SubjValue) (p : ProcInfo) :
    ruleEvaluate r { e with subj } p = ruleEvaluate r e p := by
  have hall : ∀ e : Event, checkSubjectLoop e r.s p = (1, p) := fun e => by
    rw [checkSubject_noPattern e r.s (fun f hf hp => by cases (hr f hf).symm.trans hp) p,
      if_pos (List.all_eq_true.2 fun f hf => by simp [subjFieldOk, hr f hf])]
  unfold ruleEvaluate checkSubject checkObject
  rw [hall, hall, @checkObjectLoop_obj_eq { e with subj } e rfl]
  rfl

/-- The rule `allow perm=any all : path=/bin/ls` allows an open of `/bin/ls` by uid `0`, and
by a subject of which the accessor returns nothing. -/
theorem ruleEvaluate_all_subjects_ls :
    let r : LNode := { d := ALLOW, a := .anyAcc, s := [⟨.allSubj, .unset⟩], o := [⟨.path, "/bin/ls", 0⟩],
                       format := .ruleFmtColon }
    let e : Event := ⟨0, fun t => if t = .uid then some (.val 0) else none,
      fun t => if t = .path then some ⟨some "/bin/ls", 0⟩ else none⟩
    let p : ProcInfo := ⟨.normal, IS_ELF ||| HAS_DYNAMIC, none, none⟩
    (∀ f ∈ r.s, f.type = .allSubj) ∧
      ruleEvaluate r { e with subj := fun _ => none } p = ruleEvaluate r e p := by
  intro r e p
  have hr : ∀ f ∈ r.s, f.type = .allSubj := by decide
  exact ⟨hr, ruleEvaluate_all_subjects r hr e _ p⟩

/-! ### Access first -/

/-- A rule whose access does not match the event has no opinion and leaves the pattern
state alone. -/
theorem ruleEvaluate_access {r : LNode} {e : Event} (h : checkAccess r e = 0) (p : ProcInfo) :
    ruleEvaluate r e p = (NO_OPINION, p) := by
  rw [ruleEvaluate, if_pos h]

/-- **Rules for another access are passed over.** The first-match loop gives the same decision,
and leaves the same pattern state, on the rules whose access matches the event. -/
theorem firstMatch_filter_access (e : Event) (rs : List LNode) (p : ProcInfo) :
    firstMatch e rs p = firstMatch e (rs.filter fun r => checkAccess r e ≠ 0) p := by
  induction rs generalizing p with
  | nil => rfl
  | cons r rs ih =>
    by_cases ha : checkAccess r e = 0
    · rw [List.filter_cons_of_neg (by simpa using ha), ← ih, firstMatch, ruleEvaluate_access ha]
      rfl
    · rw [List.filter_cons_of_pos (by simpa using ha), firstMatch, firstMatch]
      simp only [ih]

end Fapolicyd
