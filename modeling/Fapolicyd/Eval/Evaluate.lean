import Fapolicyd.Eval.Dirs
import Fapolicyd.Eval.Pattern

/-!
# Evaluating a rule against an event

`rule_evaluate(r, e)` returns the rule's decision when the event matches it
and `NO_OPINION` otherwise. It checks the access first (`check_access`), then
the subject fields (`check_subject`), then the object fields
(`check_object`), and stops at the first check that fails. Each field check
fetches the event's attribute of the field's type and skips the field when
there is none; a pattern field instead asks the pattern detector, which
advances the process's pattern state.

## The model

The field checks are `subjFieldOk` and `objFieldOk`, the body of one turn of
each loop, and the loops run them over the fields in order, `check_subject`
threading the pattern state through `subjPatternTest`. `check_subject` tests a
pattern field before it looks at the attribute, which is the same as the
code's order, since it tests the pattern whatever `get_subj_attr` returns.

`check_object` reads, at index `cnt`, both the object field `o[cnt]` and the
subject field `s[cnt]`: a path field is tested against the trust of the
object, and not against its own value, when the subject field at its index is
an `exe` or `exe_dir` field `untrusted`. `objFieldOk` takes that subject
field, `none` past `s_count`. There the array holds the type `UNUSED` that
`rules_append` wrote, or the type of a value `assign_subject` refused, since it
writes the type before it checks the value. Neither is `EXE` or `EXE_DIR`, the
only types the test looks for: a string value is refused only when `strdup`
fails, which the model leaves out. So `none`
stands for both. An unwritten numeric value of a rule equals no number.

## What is proved

For a rule without a pattern field, `check_subject` is the conjunction of the
field checks and leaves the pattern state alone (`checkSubject_noPattern`);
`check_object` is always the conjunction of its field checks, each with the
subject field at its index (`checkObject_eq_one_iff`). One lemma for each kind
of object field says what its check asks: `all`, a missing attribute and an
attribute without a string pass; a directory goes to `obj_dir_test`; a path
paired with an `untrusted` program field asks that the object be untrusted; a
trust field compares its first character with the object's trust; `ftype=any`
passes; any other field asks for the same string
(`objFieldOk_allObj` to `objFieldOk_exact`, gathered in
`checkObject_pairs_subject_fields`).
-/

namespace Fapolicyd

/-- `check_access(r, e)`: `ANY` matches every event, else the access must be the one the
event asks for. -/
def checkAccess (r : LNode) (e : Event) : Nat :=
  if r.a = .anyAcc then 1
  else
    let perm : Access := if e.type &&& FAN_OPEN_EXEC_PERM ≠ 0 then .execAcc else .openAcc
    if r.a = perm then 1 else 0

/-- The `str` member of a rule's string field; a union with no string, which `nv_split`
never builds for a string type, reads as the empty string. -/
def SubjValue.strD (v : SubjValue) : String := v.str?.getD ""

/-- One turn of the loop of `check_subject` on a field other than a pattern: the field
lets the loop go on. -/
def subjFieldOk (e : Event) (f : SubjectAttr) : Bool :=
  if f.type = .allSubj then true
  else
    match e.subj f.type with
    | none => true
    | some subj =>
      if f.type.isStr then
        match subj.str? with
        | none => true
        | some str =>
          if f.type = .exeDir then subjDirTest f.value.strD str (isSubjTrusted e) ≠ 0
          else if f.type = .exe ∧ strcmp f.value.strD "untrusted" = 0 then !isSubjTrusted e
          else strcmp str f.value.strD = 0
      else subj.val? = f.value.val?

/-- The loop of `check_subject(r, e)` over the subject fields left, with the pattern state:
`1` for a match, `0` for none. A pattern field that reports an error ends the loop with a
match. -/
def checkSubjectLoop (e : Event) : List SubjectAttr → ProcInfo → Int × ProcInfo
  | [], p => (1, p)
  | f :: rest, p =>
    if f.type = .pattern then
      let t := subjPatternTest f e.type p
      if t.1 = 0 then (0, t.2)
      else if t.1 = -1 then (1, t.2)
      else checkSubjectLoop e rest t.2
    else if subjFieldOk e f then checkSubjectLoop e rest p
    else (0, p)

/-- `check_subject(r, e)`. -/
def checkSubject (r : LNode) (e : Event) (p : ProcInfo) : Int × ProcInfo :=
  checkSubjectLoop e r.s p

/-- `r->s[cnt]` is an `exe` or `exe_dir` field `untrusted`. -/
def SubjectAttr.isUntrustedExe (f : SubjectAttr) : Bool :=
  (f.type = .exe ∨ f.type = .exeDir) ∧ strcmp f.value.strD "untrusted" = 0

/-- One turn of the loop of `check_object` on the object field `f`, whose index holds the
subject field `paired` (`none` past `s_count`): the field lets the loop go on. -/
def objFieldOk (e : Event) (paired : Option SubjectAttr) (f : ObjectAttr) : Bool :=
  if f.type = .allObj then true
  else
    match e.obj f.type with
    | none => true
    | some obj =>
      if obj.o = none ∧ f.type ≠ .objTrust then true
      else if f.type = .odir then objDirTest f (obj.o.getD "") (isObjTrusted e) ≠ 0
      else if f.type = .path ∧ paired.any SubjectAttr.isUntrustedExe then !isObjTrusted e
      else if f.type = .objTrust then
        let val := if obj.len = 0 then "0" else "1"
        val.data.head? = f.o.data.head?
      else if f.type = .ftype ∧ strcmp f.o "any" = 0 then true
      else strcmp (obj.o.getD "") f.o = 0

/-- The loop of `check_object(r, e)` from the index `cnt` on. -/
def checkObjectLoop (r : LNode) (e : Event) : Nat → List ObjectAttr → Nat
  | _, [] => 1
  | cnt, f :: rest => if objFieldOk e r.s[cnt]? f then checkObjectLoop r e (cnt + 1) rest else 0

/-- `check_object(r, e)`. -/
def checkObject (r : LNode) (e : Event) : Nat := checkObjectLoop r e 0 r.o

/-- `rule_evaluate(r, e)`: the rule's decision if the access, the subject and the object
match, else `NO_OPINION`; and the pattern state it leaves. -/
def ruleEvaluate (r : LNode) (e : Event) (p : ProcInfo) : Decision × ProcInfo :=
  if checkAccess r e = 0 then (NO_OPINION, p)
  else
    let t := checkSubject r e p
    if t.1 = 0 then (NO_OPINION, t.2)
    else if checkObject r e = 0 then (NO_OPINION, t.2)
    else (r.d, t.2)

/-- Modelled from the spec: the caller's loop over the rules, "applied per rule, in store
order, by the caller until one rule returns other than NO_OPINION, or the store is
exhausted". -/
def firstMatch (e : Event) : List LNode → ProcInfo → Decision × ProcInfo
  | [], p => (NO_OPINION, p)
  | r :: rs, p =>
    let t := ruleEvaluate r e p
    if t.1 = NO_OPINION then firstMatch e rs t.2 else t

/-! ### The loops are conjunctions -/

/-- Without a pattern field, `check_subject` is the conjunction of the field checks and
leaves the pattern state as it was. -/
theorem checkSubject_noPattern (e : Event) (s : List SubjectAttr) (hs : ∀ f ∈ s, f.type ≠ .pattern)
    (p : ProcInfo) : checkSubjectLoop e s p = (if s.all (subjFieldOk e) then 1 else 0, p) := by
  induction s with
  | nil => rfl
  | cons f rest ih =>
    have hf := hs f (List.mem_cons_self _ _)
    rw [checkSubjectLoop, if_neg hf, ih fun g hg => hs g (List.mem_cons_of_mem _ hg)]
    by_cases hok : subjFieldOk e f <;> simp [hok]

/-- A pattern field that reports an analysis error ends `check_subject` with a match, and
the fields after it are never checked: the rule `allow perm=any pattern=ld_so uid=5 : all`
allows an event of uid `0` whose process failed its ELF analysis. -/
theorem checkSubject_error_skips_fields :
    let r : LNode := { d := ALLOW, a := .anyAcc, s := [⟨.pattern, .val PATTERN_LD_SO_VAL⟩, ⟨.uid, .val 5⟩],
                       o := [⟨.allObj, "", 0⟩], format := .ruleFmtColon }
    let e : Event := ⟨0, fun t => if t = .uid then some (.val 0) else none, fun _ => none⟩
    let p : ProcInfo := ⟨.full, IS_ELF ||| HAS_DYNAMIC ||| HAS_ERROR, some "/usr/bin/ls", none⟩
    nvSplit daemonTables "allow perm=any pattern=ld_so uid=5 : all" 1 = .ret 0 r [] ∧
      subjFieldOk e ⟨.uid, .val 5⟩ = false ∧ (checkSubject r e p).1 = 1 ∧
      (ruleEvaluate r e p).1 = ALLOW := by
  decide

theorem checkObjectLoop_eq_one_iff (r : LNode) (e : Event) :
    ∀ (o : List ObjectAttr) (cnt : Nat), checkObjectLoop r e cnt o = 1 ↔
      ∀ i (h : i < o.length), objFieldOk e r.s[cnt + i]? (o.get ⟨i, h⟩) = true
  | [], _ => by simp [checkObjectLoop]
  | f :: rest, cnt => by
    rw [checkObjectLoop]
    by_cases hok : objFieldOk e r.s[cnt]? f
    · rw [if_pos hok, checkObjectLoop_eq_one_iff r e rest (cnt + 1)]
      constructor
      · intro h i hi
        cases i with
        | zero => simpa using hok
        | succ i => simpa [Nat.add_right_comm, Nat.add_assoc] using h i (by simpa using hi)
      · intro h i hi
        simpa [Nat.add_right_comm, Nat.add_assoc] using h (i + 1) (by simpa using hi)
    · rw [if_neg hok]
      simp only [zero_ne_one, false_iff, not_forall]
      exact ⟨0, by simp, by simpa using hok⟩

/-- `check_object` matches exactly when every object field passes its check, each with
the subject field at its index. -/
theorem checkObject_eq_one_iff (r : LNode) (e : Event) :
    checkObject r e = 1 ↔ ∀ i (h : i < r.o.length), objFieldOk e r.s[i]? (r.o.get ⟨i, h⟩) = true := by
  simpa using checkObjectLoop_eq_one_iff r e r.o 0

/-- A path field is tested against the object's trust, and not against its own value,
when the subject field at its index is `exe=untrusted`: the rule
`allow perm=any exe=untrusted : path=/usr/bin/ls` matches the object `/etc/shadow`, and the
same object field after the subject field `uid=0` does not. -/
theorem checkObject_reads_subject_field :
    let e : Event := ⟨0, fun _ => none,
      fun t => if t = .path then some ⟨some "/etc/shadow", 0⟩ else none⟩
    let r : LNode := { d := ALLOW, a := .anyAcc, s := [⟨.exe, .str "untrusted"⟩],
                       o := [⟨.path, "/usr/bin/ls", 0⟩], format := .ruleFmtColon }
    nvSplit daemonTables "allow perm=any exe=untrusted : path=/usr/bin/ls" 1 = .ret 0 r [] ∧
      checkObject r e = 1 ∧ checkObject { r with s := [⟨.uid, .val 0⟩] } e = 0 := by
  decide

/-! ### One object field -/

section ObjField

variable {e : Event} {paired : Option SubjectAttr}

theorem objFieldOk_allObj (v : String) (len : Nat) : objFieldOk e paired ⟨.allObj, v, len⟩ = true := by
  simp [objFieldOk]

/-- A field whose type the event has no attribute of is skipped. -/
theorem objFieldOk_missing {f : ObjectAttr} (he : e.obj f.type = none) :
    objFieldOk e paired f = true := by
  simp [objFieldOk, he]

/-- An attribute without a string is skipped, except by a trust field. -/
theorem objFieldOk_no_string {f : ObjectAttr} {obj : ObjectValue} (he : e.obj f.type = some obj)
    (ho : obj.o = none) (ht : f.type ≠ .objTrust) : objFieldOk e paired f = true := by
  simp [objFieldOk, he, ho, ht]

theorem objFieldOk_dir {v : String} {len : Nat} {obj : ObjectValue} {path : String}
    (he : e.obj .odir = some obj) (ho : obj.o = some path) :
    objFieldOk e paired ⟨.odir, v, len⟩ = true ↔ objDirTest ⟨.odir, v, len⟩ path (isObjTrusted e) ≠ 0 := by
  simp [objFieldOk, he, ho]

/-- A path field paired with `exe=untrusted` or `exe_dir=untrusted` tests the object's trust,
and not its own value. -/
theorem objFieldOk_untrusted_path {v : String} {len : Nat} {obj : ObjectValue} {path : String}
    (he : e.obj .path = some obj) (ho : obj.o = some path)
    (hu : paired.any SubjectAttr.isUntrustedExe = true) :
    objFieldOk e paired ⟨.path, v, len⟩ = true ↔ isObjTrusted e = false := by
  simp [objFieldOk, he, ho, hu]

/-- A trust field's first character must be `1` for an object whose trust attribute is
non-empty, `0` for one whose attribute is empty; an attribute without a string included. -/
theorem objFieldOk_trust {v : String} {len : Nat} {obj : ObjectValue}
    (he : e.obj .objTrust = some obj) :
    objFieldOk e paired ⟨.objTrust, v, len⟩ = true ↔
      v.data.head? = some (if obj.len = 0 then '0' else '1') := by
  have h0 : ("0" : String).data.head? = some '0' := rfl
  have h1 : ("1" : String).data.head? = some '1' := rfl
  by_cases hl : obj.len = 0 <;> simp [objFieldOk, he, hl, h0, h1, @eq_comm _ v.data.head?]

theorem objFieldOk_ftype_any (len : Nat) : objFieldOk e paired ⟨.ftype, "any", len⟩ = true := by
  unfold objFieldOk
  cases e.obj .ftype <;> simp

/-- Any other field, a path field not paired with `untrusted` included, needs the object's
string to be exactly its value. -/
theorem objFieldOk_exact {f : ObjectAttr} {obj : ObjectValue} {path : String}
    (he : e.obj f.type = some obj) (ho : obj.o = some path) (hall : f.type ≠ .allObj)
    (hdir : f.type ≠ .odir) (htrust : f.type ≠ .objTrust)
    (hpath : f.type = .path → paired.any SubjectAttr.isUntrustedExe = false)
    (hany : f.type = .ftype → f.o ≠ "any") :
    objFieldOk e paired f = true ↔ path = f.o := by
  unfold objFieldOk
  rw [if_neg hall, he]
  dsimp only
  rw [if_neg (by simp [ho]), if_neg hdir, if_neg fun h => absurd h.2 (by rw [hpath h.1]; decide),
    if_neg htrust, if_neg fun h => hany h.1 (strcmp_eq_zero.1 h.2), ho]
  simp

end ObjField

/-- **What `check_object` matches.** Exactly the events that pass every object field's check,
each check reading the field, the event and the subject field at the field's index. A field
passes when it is `all`, when the event has no attribute of its type, or when that attribute
has no string and the field is not a trust field. Otherwise a directory field needs the
directory test; a path field paired with `exe=untrusted` or `exe_dir=untrusted` needs the
object to be untrusted, whatever its value; a trust field's first character must be `1` or
`0` as the object's trust attribute is non-empty or not; an `ftype` field `any` passes; and
any other field, a path field not so paired included, needs the object to have exactly its
value. -/
theorem checkObject_pairs_subject_fields (r : LNode) (e : Event) :
    (checkObject r e = 1 ↔
      ∀ i (h : i < r.o.length), objFieldOk e r.s[i]? (r.o.get ⟨i, h⟩) = true) ∧
    (∀ paired v len, objFieldOk e paired ⟨.allObj, v, len⟩ = true) ∧
    (∀ paired (f : ObjectAttr), e.obj f.type = none → objFieldOk e paired f = true) ∧
    (∀ paired (f : ObjectAttr) obj, e.obj f.type = some obj → obj.o = none → f.type ≠ .objTrust →
      objFieldOk e paired f = true) ∧
    (∀ paired v len obj path, e.obj .odir = some obj → obj.o = some path →
      (objFieldOk e paired ⟨.odir, v, len⟩ = true ↔
        objDirTest ⟨.odir, v, len⟩ path (isObjTrusted e) ≠ 0)) ∧
    (∀ paired v len obj path, e.obj .path = some obj → obj.o = some path →
      paired.any SubjectAttr.isUntrustedExe = true →
      (objFieldOk e paired ⟨.path, v, len⟩ = true ↔ isObjTrusted e = false)) ∧
    (∀ paired v len obj, e.obj .objTrust = some obj →
      (objFieldOk e paired ⟨.objTrust, v, len⟩ = true ↔
        v.data.head? = some (if obj.len = 0 then '0' else '1'))) ∧
    (∀ paired len, objFieldOk e paired ⟨.ftype, "any", len⟩ = true) ∧
    (∀ paired (f : ObjectAttr) obj path, e.obj f.type = some obj → obj.o = some path →
      f.type ≠ .allObj → f.type ≠ .odir → f.type ≠ .objTrust →
      (f.type = .path → paired.any SubjectAttr.isUntrustedExe = false) →
      (f.type = .ftype → f.o ≠ "any") → (objFieldOk e paired f = true ↔ path = f.o)) :=
  ⟨checkObject_eq_one_iff r e, fun _ => objFieldOk_allObj, fun _ _ => objFieldOk_missing,
    fun _ _ _ => objFieldOk_no_string, fun _ _ _ _ _ => objFieldOk_dir,
    fun _ _ _ _ _ => objFieldOk_untrusted_path, fun _ _ _ _ => objFieldOk_trust,
    fun _ => objFieldOk_ftype_any, fun _ _ _ _ => objFieldOk_exact⟩

end Fapolicyd
