import Fapolicyd.Rules.ParseFacts

/-!
# Refused tokens: a subject value is skipped, the rule ends at an object token

`assign_subject` refuses two kinds of value: a `pattern=` value other than
`ld_so` and `static`, and a number too large for a `long`. It logs the error
and returns `2` without storing the field. Its callers, `parse_new_format` and
the loop of `nv_split`, test its result only for `3`, so they go on with the
next token: the field is dropped and the rest of the line is read as if the
token were not there. The pattern `normal`, which `rules.c` defines as
`PATTERN_NORMAL_STR`, is one of the refused values.

After the `:`, `parse_new_format` returns `2` on an object field of unknown
name and `5` on a word without `=`. `nv_split` calls it for its side effect
on the node and never reads its result: the rule is finished with the fields
read so far, and the rest of the line is lost. Before the `:` the same slip
refuses the line, since no object field has been read yet, but with the code
and the message of a missing subject or object.

## The model

`Outcome.result` forgets the messages of an outcome and keeps the code and the
node, or `none` for a run that does not return, in `exit(1)` or past an array:
a skipped token adds its message to the log and changes nothing else. A token
is refused only while `s` has room: on a full array `assign_subject` writes the
type past it before it looks at the value. The lemmas that compare two token
lists carry a bound on the subject fields written so far for that reason.

## What is proved

* `assignSubject_eq_two_iff` — exactly those two kinds of value are refused.
* `parseNewFormat_skips`, `nvSplitLoop_skips` — in `parse_new_format` before
  the `:`, and anywhere in the loop of a legacy line, a token whose value is
  refused changes neither the code nor the node returned.
* `nvSplit_skips_refused` — over whole lines of either dialect: placed anywhere
  among the first `MAX_FIELDS` words after the decision and before the `:`, such
  a token leaves the code and the rule `nv_split` returns as they are without it.
* `parseNewFormat_cut`, `nvSplit_truncates_refused_object` — a refused object
  token (`ObjRefused`) after the `:` makes `nv_split` return what it returns
  for the line cut before that token.
* `parseNewFormat_stops_before_colon`, `nvSplit_rejects_refused_subject_side` —
  a refused token before the `:` (`SubjRefused`) ends the parse before any
  object field, and `nv_split` refuses the line with the code `6` or `7` of
  `finish_up`.
-/

namespace Fapolicyd

/-- What a routine returns, without the messages it logged: the code and the node, or
`none` for a run that does not return. -/
def Outcome.result : Outcome → Option (Int × LNode)
  | .ret rc n _ => some (rc, n)
  | .exit _ | .overrun _ => none

@[simp] theorem Outcome.result_ret (rc : Int) (n : LNode) (log : List Msg) :
    (Outcome.ret rc n log).result = some (rc, n) := rfl

@[simp] theorem Outcome.result_exit (log : List Msg) : (Outcome.exit log).result = none := rfl

@[simp] theorem Outcome.result_after (log : List Msg) (r : Outcome) :
    (r.after log).result = r.result := by
  cases r <;> rfl

section Refused

variable {D : NameTables}

/-- Through any view `g` of what a routine returns, `assign_subject` followed by two
continuations that agree, on the nodes with at most one more subject field, gives the same. -/
theorem subjectThen_congr {α : Type} (g : Option (Int × LNode) → α) {n : LNode} {t : SubjType}
    {v : String} {l : Nat} {k₁ k₂ : LNode → Outcome}
    (hk : ∀ n', n'.s.length ≤ n.s.length + 1 → g (k₁ n').result = g (k₂ n').result) :
    g (subjectThen D n t v l k₁).result = g (subjectThen D n t v l k₂).result := by
  unfold subjectThen
  rcases assignSubject_cases (D := D) n t v l with h | h | ⟨f, hr, -, -, h⟩ | ⟨m, h⟩ <;> rw [h]
  · rfl
  · rfl
  · simpa using hk _ (by simp)
  · simpa using hk n (Nat.le_succ _)

/-- The same for `assign_object`, whose continuations see the subject fields unchanged. -/
theorem objectThen_congr {α : Type} (g : Option (Int × LNode) → α) {n : LNode} {t : ObjType}
    {v : String} {k₁ k₂ : LNode → Outcome}
    (hk : ∀ n', n'.s = n.s → g (k₁ n').result = g (k₂ n').result) :
    g (objectThen n t v k₁).result = g (objectThen n t v k₂).result := by
  by_cases h : MAX_FIELDS ≤ n.o.length
  · rw [objectThen_full h, objectThen_full h]
  · rw [objectThen_room (Nat.not_le.1 h), objectThen_room (Nat.not_le.1 h)]
    exact hk _ rfl

variable {tok name v : String} {t : SubjType} {l : Nat}

/-- Two token lists that give the same through a view `g` of what `parse_new_format` returns,
from every node with at most `N` subject fields, still do after a common prefix from a node
that leaves room for one field per word of the prefix; before the `:` the prefix must not
hold a `:`, which would move the parse to the object fields. -/
theorem parseNewFormat_append_congr {α : Type} (g : Option (Int × LNode) → α) {state N : Nat}
    {rest₁ rest₂ : List String}
    (hrest : ∀ n : LNode, n.s.length ≤ N →
      g (parseNewFormat D l state n rest₁).result = g (parseNewFormat D l state n rest₂).result) :
    ∀ (ss : List String) (n : LNode), (state = 0 → ":" ∉ ss) → n.s.length + ss.length ≤ N →
      g (parseNewFormat D l state n (ss ++ rest₁)).result =
        g (parseNewFormat D l state n (ss ++ rest₂)).result
  | [], n, _, hN => hrest n hN
  | w :: ss, n, hsep, hN => by
    have ih := fun n' (h' : n'.s.length ≤ n.s.length + 1) => parseNewFormat_append_congr g hrest ss n'
      (fun h hm => hsep h (List.mem_cons_of_mem _ hm)) (by simp at hN; omega)
    have ih' := fun n' (h' : n'.s = n.s) => ih n' (by rw [h']; omega)
    rw [List.cons_append, List.cons_append, parseNewFormat.eq_2, parseNewFormat.eq_2]
    cases splitAtEq w with
    | some p =>
      dsimp only
      by_cases h0 : state = 0
      · rw [if_pos h0, if_pos h0]
        cases D.subjNameToVal p.1 2 with
        | none => rfl
        | some t' => exact subjectThen_congr g ih
      · rw [if_neg h0, if_neg h0]
        cases D.objNameToVal p.1 with
        | none => rfl
        | some t' => exact objectThen_congr g ih'
    | none =>
      dsimp only
      have hc : ¬(state = 0 ∧ strcmp w ":" = 0) := fun h =>
        hsep h.1 (strcmp_eq_zero.1 h.2 ▸ List.mem_cons_self _ _)
      rw [if_neg hc, if_neg hc]
      by_cases ha : strcmp w "all" = 0
      · rw [if_pos ha, if_pos ha]
        by_cases h0 : state = 0
        · rw [if_pos h0, if_pos h0]; exact subjectThen_congr g ih
        · rw [if_neg h0, if_neg h0]; exact objectThen_congr g ih'
      · rw [if_neg ha, if_neg ha]

/-- The first `name=value` token of a colon-dialect line stores at most one subject field. -/
theorem colonFirst_length (n : LNode) (name v : String) (l : Nat) :
    (colonFirst D n name v l).Holds fun _ m => m.s.length ≤ n.s.length + 1 ∧ m.o = n.o := by
  rcases colonFirst_cases (D := D) n name v l with ⟨a, h⟩ | ⟨rc, m, -, h⟩ | ⟨t, h⟩ <;> rw [h]
  · exact ⟨Nat.le_succ _, rfl⟩
  · exact ⟨Nat.le_succ _, rfl⟩
  · unfold subjectThen
    rcases assignSubject_cases (D := D) n t v l with h | h | ⟨f, hr, -, -, h⟩ | ⟨m, h⟩ <;> rw [h]
    · trivial
    · trivial
    · exact ⟨by simp, rfl⟩
    · exact ⟨Nat.le_succ _, rfl⟩

/-- On a colon-dialect line whose first field is a `name=value`, the loop of `nv_split` reads
`parse_new_format` only through the node it leaves: its code is never read. -/
theorem nvSplitLoop_colon_congr {w : String} {rest₁ rest₂ : List String} (hw : splitAtEq w ≠ none)
    (n : LNode) (hp : ∀ n' : LNode, n'.s.length ≤ n.s.length + 1 →
      (parseNewFormat D l 0 n' rest₁).result.map Prod.snd =
        (parseNewFormat D l 0 n' rest₂).result.map Prod.snd) :
    (nvSplitLoop D .ruleFmtColon l n (w :: rest₁)).result =
      (nvSplitLoop D .ruleFmtColon l n (w :: rest₂)).result := by
  obtain ⟨⟨name', v'⟩, hw'⟩ := Option.ne_none_iff_exists'.1 hw
  have hc := colonFirst_length (D := D) n name' v' l
  rw [nvSplitLoop, nvSplitLoop, hw']
  dsimp only
  rw [if_pos rfl, if_pos rfl]
  revert hc
  cases colonFirst D n name' v' l with
  | exit log | overrun log => exact fun _ => rfl
  | ret rc n' log =>
    intro hc
    rw [Outcome.ret_bind, Outcome.ret_bind]
    split_ifs
    · rfl
    · rw [Outcome.result_after, Outcome.result_after]
      have hp := hp n' hc.1
      revert hp
      cases parseNewFormat D l 0 n' rest₁ <;> cases parseNewFormat D l 0 n' rest₂ <;> intro hp <;>
        cases hp <;> first | rfl | rw [Outcome.ret_bind, Outcome.ret_bind, Outcome.result_after,
          Outcome.result_after]

/-- Two lines of blank-free words with the same first word and the same dialect give the same
outcome, through any view `g` of it, when the loop of `nv_split` does on the words after the
first, from a node without fields. -/
theorem nvSplit_congr_loop {α : Type} (g : Outcome → α) {d : String} {ws₁ ws₂ : List String}
    (h₁ : ∀ x ∈ d :: ws₁, x.data ≠ [] ∧ ' ' ∉ x.data) (h₂ : ∀ x ∈ d :: ws₂, x.data ≠ [] ∧ ' ' ∉ x.data)
    (hfmt : lineFormat (unwords (d :: ws₁)) = lineFormat (unwords (d :: ws₂)))
    (hloop : ∀ n : LNode, n.s = [] → n.o = [] →
      g (nvSplitLoop D (lineFormat (unwords (d :: ws₁))) l n ws₁) =
      g (nvSplitLoop D (lineFormat (unwords (d :: ws₁))) l n ws₂)) :
    g (nvSplit D (unwords (d :: ws₁)) l) = g (nvSplit D (unwords (d :: ws₂)) l) := by
  unfold nvSplit
  rw [strtok_unwords (fun x hx => (h₁ x hx).1) (fun x hx => (h₁ x hx).2),
    strtok_unwords (fun x hx => (h₂ x hx).1) (fun x hx => (h₂ x hx).2), ← hfmt]
  dsimp only
  split_ifs
  · rfl
  · cases D.decNameToVal d with
    | none => rfl
    | some dec => exact hloop _ rfl rfl

variable {bad : String}

/-- An object token `parse_new_format` refuses: a field whose name `obj_name_to_val` does not
know, or a word without `=` other than `all`. -/
def ObjRefused (D : NameTables) (bad : String) : Prop :=
  (∃ name v, splitAtEq bad = some (name, v) ∧ D.objNameToVal name = none) ∨
    (splitAtEq bad = none ∧ strcmp bad "all" ≠ 0)

/-- After the `:`, a refused object token ends `parse_new_format` with the node it has: the node
is the one the tokens before that token give. -/
theorem parseNewFormat_cut (hbad : ObjRefused D bad) (os1 os2 : List String) (n : LNode) :
    (parseNewFormat D l 1 n (os1 ++ bad :: os2)).result.map Prod.snd =
      (parseNewFormat D l 1 n os1).result.map Prod.snd := by
  have hbase : ∀ n, (parseNewFormat D l 1 n (bad :: os2)).result.map Prod.snd =
      (parseNewFormat D l 1 n []).result.map Prod.snd := fun n => by
    rw [parseNewFormat.eq_2]
    rcases hbad with ⟨name, v, hs, hname⟩ | ⟨hs, ha⟩
    · rw [hs]
      dsimp only
      rw [if_neg Nat.one_ne_zero, hname]
      rfl
    · rw [hs]
      dsimp only
      rw [if_neg fun h => Nat.one_ne_zero h.1, if_neg ha]
      rfl
  simpa using parseNewFormat_append_congr (Option.map Prod.snd) (N := n.s.length + os1.length)
    (fun n _ => hbase n) os1 n (fun h => absurd h Nat.one_ne_zero) le_rfl

/-- Two lines that agree up to their `:`, and whose rests give the same after it, give the same
before it, through any view `g` of what `parse_new_format` returns. -/
theorem parseNewFormat_colon_congr {α : Type} (g : Option (Int × LNode) → α)
    {rest₁ rest₂ : List String}
    (hrest : ∀ n, g (parseNewFormat D l 1 n rest₁).result = g (parseNewFormat D l 1 n rest₂).result) :
    ∀ (ss : List String) (n : LNode), ":" ∉ ss →
      g (parseNewFormat D l 0 n (ss ++ ":" :: rest₁)).result =
        g (parseNewFormat D l 0 n (ss ++ ":" :: rest₂)).result :=
  fun ss n hsep => parseNewFormat_append_congr g (N := n.s.length + ss.length)
    (fun n _ => by rw [parseNewFormat_colon, parseNewFormat_colon]; exact hrest n) ss n
    (fun _ => hsep) le_rfl

/-- **A refused object token ends the rule.** In a colon-dialect line of words without blanks
whose first field is a `name=value`, an object token after the `:` that `parse_new_format`
refuses makes `nv_split` return the code and the rule it returns for the line cut before that
token: `nv_split` does not read the code `parse_new_format` returns, and the fields after the
token are dropped. -/
theorem nvSplit_truncates_refused_object (hbad : ObjRefused D bad) {d w : String} {ss os1 os2 : List String}
    (hw : splitAtEq w ≠ none) (hsep : ":" ∉ ss)
    (hwords : ∀ x ∈ d :: w :: (ss ++ ":" :: (os1 ++ bad :: os2)), x.data ≠ [] ∧ ' ' ∉ x.data) :
    (nvSplit D (unwords (d :: w :: (ss ++ ":" :: (os1 ++ bad :: os2)))) l).result =
      (nvSplit D (unwords (d :: w :: (ss ++ ":" :: os1))) l).result := by
  have hsub : ∀ x ∈ d :: w :: (ss ++ ":" :: os1), x ∈ d :: w :: (ss ++ ":" :: (os1 ++ bad :: os2)) :=
    (((((List.sublist_append_left os1 (bad :: os2)).cons₂ ":").append_left ss).cons₂ w).cons₂ d).subset
  have hwords' : ∀ x ∈ d :: w :: (ss ++ ":" :: os1), x.data ≠ [] ∧ ' ' ∉ x.data :=
    fun x hx => hwords x (hsub x hx)
  have hcol : ∀ os, ':' ∈ (unwords (d :: w :: (ss ++ ":" :: os))).data := fun os =>
    (mem_unwords (by decide)).2 ⟨":", by simp, by decide⟩
  refine nvSplit_congr_loop Outcome.result hwords hwords' (by simp only [lineFormat, if_pos (hcol _)])
    fun n _ _ => ?_
  rw [lineFormat, if_pos (hcol _)]
  exact nvSplitLoop_colon_congr hw n fun n' _ => parseNewFormat_colon_congr (Option.map Prod.snd)
    (fun n => parseNewFormat_cut hbad os1 os2 n) ss n' hsep

/-- The line `allow perm=execute all : dir=/opt/ trusted=1 ftype=application/x-executable`,
whose author misspelt the object field `trust`, is read as `allow perm=execute all : dir=/opt/`:
it lets anything under `/opt/` run, trusted or not, of any file type. -/
theorem nvSplit_truncates_misspelt_trust :
    (nvSplit daemonTables (unwords ["allow", "perm=execute", "all", ":", "dir=/opt/", "trusted=1",
        "ftype=application/x-executable"]) 1).result =
      (nvSplit daemonTables (unwords ["allow", "perm=execute", "all", ":", "dir=/opt/"]) 1).result ∧
    nvSplit daemonTables "allow perm=execute all : dir=/opt/" 1 =
      .ret 0 { d := ALLOW, a := .execAcc, s := [⟨.allSubj, .unset⟩], o := [⟨.odir, "/opt/", 5⟩],
               format := .ruleFmtColon } [] :=
  ⟨@nvSplit_truncates_refused_object daemonTables 1 "trusted=1" (.inl ⟨"trusted", "1", rfl, rfl⟩)
      "allow" "perm=execute" ["all"] ["dir=/opt/"] ["ftype=application/x-executable"] (by decide)
      (by decide) (by decide),
    by decide⟩

/-! ### A refused token before the `:` refuses the line -/

/-- A subject-side token `parse_new_format` refuses: a field whose name `subj_name_to_val`
does not know, or a word without `=` other than `:` and `all`. -/
def SubjRefused (D : NameTables) (bad : String) : Prop :=
  (∃ name v, splitAtEq bad = some (name, v) ∧ D.subjNameToVal name 2 = none) ∨
    (splitAtEq bad = none ∧ strcmp bad ":" ≠ 0 ∧ strcmp bad "all" ≠ 0)

/-- A property of the node alone holds of an outcome when it holds of one that returns the
same node. -/
theorem Outcome.holds_of_node_eq {r r' : Outcome} {P : LNode → Prop}
    (h : r.result.map Prod.snd = r'.result.map Prod.snd) (h' : r'.Holds fun _ m => P m) :
    r.Holds fun _ m => P m := by
  cases r with
  | exit | overrun => trivial
  | ret rc n log =>
    cases r' with
    | exit | overrun => cases h
    | ret rc' n' log' =>
      have hn : n = n' := Option.some.inj h
      exact hn ▸ h'

/-- Before the `:`, a refused token ends `parse_new_format`, and no object field is written. -/
theorem parseNewFormat_stops_before_colon (hbad : SubjRefused D bad) (ss rest : List String)
    (hsep : ":" ∉ ss) (n : LNode) (hn : n.o = []) :
    (parseNewFormat D l 0 n (ss ++ bad :: rest)).Holds fun _ m => m.o = [] := by
  have hbase : ∀ n, (parseNewFormat D l 0 n (bad :: rest)).result.map Prod.snd =
      (parseNewFormat D l 0 n []).result.map Prod.snd := fun n => by
    rw [parseNewFormat.eq_2]
    rcases hbad with ⟨name, v, hs, hname⟩ | ⟨hs, hc, ha⟩
    · rw [hs]
      dsimp only
      rw [if_pos rfl, hname]
      rfl
    · rw [hs]
      dsimp only
      rw [if_neg fun h => hc h.2, if_neg ha]
      rfl
  refine Outcome.holds_of_node_eq ?_
    (parseNewFormat_subjects_holds (D := D) (l := l) (fun _ _ _ h _ => h) n ss hsep hn)
  simpa using parseNewFormat_append_congr (Option.map Prod.snd) (N := n.s.length + ss.length)
    (fun n _ => hbase n) ss n (fun _ => hsep) le_rfl

/-- `finish_up` on a node without object fields refuses it, with the code of a missing subject
or of a missing object. -/
theorem finishUp_no_objects {n : LNode} (hn : n.o = []) (l : Nat) :
    (finishUp n l).Holds fun rc m => (rc = 6 ∨ rc = 7) ∧ m.o = [] := by
  unfold finishUp
  split_ifs with hs ho
  · exact ⟨.inl rfl, hn⟩
  · exact ⟨.inr rfl, hn⟩
  · exact absurd (List.length_eq_zero.2 hn) ho

/-- On a colon-dialect line whose first field is a `name=value`, when `parse_new_format`
writes no object field, the loop never accepts the line; when that first field is accepted,
the code is that of `finish_up`. -/
theorem nvSplitLoop_colon_no_objects {w name v : String} {ws : List String}
    (hw : splitAtEq w = some (name, v))
    (hp : ∀ n : LNode, n.o = [] → (parseNewFormat D l 0 n ws).Holds fun _ m => m.o = [])
    {n : LNode} (hn : n.o = []) :
    (nvSplitLoop D .ruleFmtColon l n (w :: ws)).Holds fun rc m => m.o = [] ∧ rc ≠ 0 ∧
      ((colonFirst D n name v l).Holds (fun rc' _ => rc' = 0) → rc = 6 ∨ rc = 7) := by
  have hc := colonFirst_length (D := D) n name v l
  rw [nvSplitLoop, hw]
  dsimp only
  rw [if_pos rfl]
  revert hc
  cases colonFirst D n name v l with
  | exit | overrun => exact fun _ => trivial
  | ret rc n' log =>
    rintro ⟨-, ho⟩
    rw [Outcome.ret_bind]
    by_cases hrc : rc = 0
    · rw [if_neg (not_not.2 hrc), Outcome.holds_after]
      refine (hp n' (ho.trans hn)).bind fun _ n'' _ h => ?_
      rw [Outcome.holds_after]
      exact (finishUp_no_objects h l).mono fun rc m h' =>
        ⟨h'.2, by rcases h'.1 with rfl | rfl <;> decide, fun _ => h'.1⟩
    · rw [if_pos hrc]
      exact ⟨ho.trans hn, hrc, fun h => absurd h hrc⟩

/-- On a colon-dialect line of blank-free words whose first field is a `name=value`, when
`parse_new_format` writes no object field, `nv_split` never accepts the line. -/
theorem nvSplit_colon_no_objects {d w : String} {ws : List String} (hw : splitAtEq w ≠ none)
    (hp : ∀ n : LNode, n.o = [] → (parseNewFormat D l 0 n ws).Holds fun _ m => m.o = [])
    (hcol : ∃ x ∈ d :: w :: ws, ':' ∈ x.data)
    (hwords : ∀ x ∈ d :: w :: ws, x.data ≠ [] ∧ ' ' ∉ x.data) :
    (nvSplit D (unwords (d :: w :: ws)) l).Holds fun rc _ => rc ≠ 0 := by
  obtain ⟨⟨name', v'⟩, hw'⟩ := Option.ne_none_iff_exists'.1 hw
  unfold nvSplit
  rw [strtok_unwords (fun x hx => (hwords x hx).1) (fun x hx => (hwords x hx).2)]
  simp only [lineFormat, if_pos ((mem_unwords (by decide)).2 hcol)]
  split_ifs
  · exact (by decide : (-1 : Int) ≠ 0)
  cases D.decNameToVal d with
  | none => exact (by decide : (1 : Int) ≠ 0)
  | some dec => exact (nvSplitLoop_colon_no_objects hw' hp rfl).mono fun _ _ h => h.2.1

/-- **A refused token before the `:` refuses the line.** In a colon-dialect line of blank-free
words with a decision and a first field `name=value` that `nv_split` accepts, a token before
the `:` that `parse_new_format` refuses ends it before any object field, whatever follows, and
`nv_split` refuses the line with the code `6` or `7` of `finish_up`, a missing subject or
object, not with the code of the refused token. -/
theorem nvSplit_rejects_refused_subject_side (hbad : SubjRefused D bad) {d w : String}
    {dec : Decision} {ss mid rest : List String} (hdec : D.decNameToVal d = some dec)
    (hcom : d.data.head? ≠ some '#') (hw : splitAtEq w = some (name, v))
    (hacc : ∀ n : LNode, (colonFirst D n name v l).Holds fun rc _ => rc = 0) (hsep : ":" ∉ ss)
    (hwords : ∀ x ∈ d :: w :: (ss ++ bad :: (mid ++ ":" :: rest)), x.data ≠ [] ∧ ' ' ∉ x.data) :
    (nvSplit D (unwords (d :: w :: (ss ++ bad :: (mid ++ ":" :: rest)))) l).Holds
      fun rc m => (rc = 6 ∨ rc = 7) ∧ m.o = [] := by
  have hcol : ':' ∈ (unwords (d :: w :: (ss ++ bad :: (mid ++ ":" :: rest)))).data :=
    (mem_unwords (by decide)).2 ⟨":", by simp, by decide⟩
  unfold nvSplit
  rw [strtok_unwords (fun x hx => (hwords x hx).1) (fun x hx => (hwords x hx).2)]
  simp only [lineFormat, if_pos hcol, if_neg hcom, hdec]
  exact (nvSplitLoop_colon_no_objects hw
    (fun n hn => parseNewFormat_stops_before_colon hbad ss _ hsep n hn) rfl).mono
    fun _ _ h => ⟨h.2.2 (hacc _), h.1⟩

/-- The line `deny perm=any uid=0 exe_dirr=/opt/ : all`, whose author misspelt `exe_dir`, is
refused with the code and the message of a missing object, although its object is `all`. -/
theorem nvSplit_rejects_misspelt_exe_dir :
    (nvSplit daemonTables (unwords ["deny", "perm=any", "uid=0", "exe_dirr=/opt/", ":", "all"])
        1).Holds (fun rc m => (rc = 6 ∨ rc = 7) ∧ m.o = []) ∧
    nvSplit daemonTables "deny perm=any uid=0 exe_dirr=/opt/ : all" 1 =
      .ret 7 { d := DENY, a := .anyAcc, s := [⟨.uid, .val 0⟩], o := [], format := .ruleFmtColon }
        [.fieldUnknown "exe_dirr" 1, .objectMissing 1] :=
  ⟨@nvSplit_rejects_refused_subject_side daemonTables "perm" "any" 1 "exe_dirr=/opt/"
      (.inl ⟨"exe_dirr", "/opt/", rfl, rfl⟩) "deny" "perm=any" DENY ["uid=0"] [] ["all"] rfl
      (by decide) (by decide) (fun _ => rfl) (by decide) (by decide),
    by decide⟩

end Refused

end Fapolicyd
