import Fapolicyd.Store.Refine
import Fapolicyd.Rules.Refused

/-!
# When loading a rule stops

Of the routines `rules_append` calls, one can end the process: `assign_subject`
calls `exit(1)` when a `uid` or `auid` field holds a name, not a number, and
`getpwnam` knows no such user. This module shows it is the only way a line can
end the process, in either dialect, wherever the field stands on the line. The
one other way the model stops is a write past a field array, and only a line
with more than `MAX_FIELDS` words after its decision can make it: each word
stores at most one field.

This is a build without `DEBUG`. With it, `sanity_check_node` checks the node
on entry to `assign_subject` and `assign_object` and aborts on what it does not
like, a slot whose type a refused value left behind included; the model does
not follow those checks into the nodes.

## The model

`UnknownUser D tok v` says that the token `tok` is such a field, with the value
`v`. `Outcome.ExitsOnUser D ts r` says that where the outcome `r` ends the
process, it is on such a token of `ts`, and the last message logged is
`user v is unknown`. `Outcome.OverrunIf P r` says that where `r` writes past an
array, `P` holds. Each routine of the parser gets one lemma saying its outcome
has each property for the tokens it reads; the loops get theirs by induction on
the tokens.

## What is proved

`nvSplit_exit_only_unknown_user`: when `nv_split` ends the process, a token of
the line is a `uid` or `auid` field naming a user `getpwnam` does not know, and
the last message says so. `nvSplit_overrunIf`: when `nv_split` writes past an
array, the line has more than `MAX_FIELDS` words after its decision.
`rules_load_exits_only_on_unknown_user`: a sequence of calls on the store fails
to return only on such lines.
-/

namespace Fapolicyd

section Exit

variable (D : NameTables)

/-- The token `tok` is a field `name=v` that a dialect reads as a `uid` or `auid`, and its
value `v` does not start with a digit and names no user `getpwnam` knows. -/
def UnknownUser (tok v : String) : Prop :=
  ∃ name k t, splitAtEq tok = some (name, v) ∧ D.subjNameToVal name k = some t ∧
    (t = .auid ∨ t = .uid) ∧ isdigit v = false ∧ D.getpwnam v = none

/-- Where the outcome ends the process, it is on a token of `ts` naming an unknown user, and
the last message logged says so. -/
def Outcome.ExitsOnUser (ts : List String) : Outcome → Prop
  | .ret .. | .overrun _ => True
  | .exit log => ∃ tok ∈ ts, ∃ v, UnknownUser D tok v ∧ log.getLast? = some (.userUnknown v)

variable {D} {ts ts' : List String} {r : Outcome}

theorem Outcome.ExitsOnUser.mono (h : r.ExitsOnUser D ts) (hts : ts ⊆ ts') :
    r.ExitsOnUser D ts' := by
  cases r with
  | ret | overrun => trivial
  | exit log =>
    obtain ⟨tok, hm, v, hu, hl⟩ := h
    exact ⟨tok, hts hm, v, hu, hl⟩

/-- Messages logged before the routine do not change its last one. -/
theorem Outcome.ExitsOnUser.after (h : r.ExitsOnUser D ts) (log : List Msg) :
    (r.after log).ExitsOnUser D ts := by
  cases r with
  | ret | overrun => trivial
  | exit l =>
    obtain ⟨tok, hm, v, hu, hl⟩ := h
    refine ⟨tok, hm, v, hu, ?_⟩
    rw [List.getLast?_append, hl]
    rfl

/-- `assign_subject` ends the process only on a `uid` or `auid` field whose value is no
number and no user `getpwnam` knows, with the one message `user v is unknown`. -/
theorem assignSubject_exit {n : LNode} {t : SubjType} {v : String} {l : Nat} {log : List Msg}
    (h : assignSubject D n t v l = .exit log) :
    (t = .auid ∨ t = .uid) ∧ isdigit v = false ∧ D.getpwnam v = none ∧ log = [.userUnknown v] := by
  unfold assignSubject at h
  split at h
  · cases h
  dsimp only at h
  by_cases hs : t.isStr = true
  · rw [if_pos hs] at h; cases h
  rw [if_neg hs] at h
  by_cases hp : t = .pattern
  · rw [if_pos hp] at h
    split_ifs at h
  rw [if_neg hp] at h
  by_cases hd : isdigit v = true
  · rw [if_pos hd] at h
    split at h <;> cases h
  rw [if_neg hd] at h
  by_cases hu : t = .auid ∨ t = .uid
  · rw [if_pos hu] at h
    cases hg : D.getpwnam v with
    | some uid => rw [hg] at h; cases h
    | none =>
      rw [hg] at h
      exact ⟨hu, Bool.not_eq_true _ ▸ hd, rfl, (Outcome.exit.inj h).symm⟩
  · rw [if_neg hu] at h; cases h

theorem assignSubject_exitsOnUser {tok name v : String} {k : Nat} {t : SubjType}
    (hs : splitAtEq tok = some (name, v)) (ht : D.subjNameToVal name k = some t) (n : LNode)
    (l : Nat) : (assignSubject D n t v l).ExitsOnUser D [tok] := by
  cases h : assignSubject D n t v l with
  | ret | overrun => trivial
  | exit log =>
    obtain ⟨hu, hd, hg, rfl⟩ := assignSubject_exit h
    exact ⟨tok, List.mem_singleton_self _, v, ⟨name, k, t, hs, ht, hu, hd, hg⟩, rfl⟩

/-- The `all` of the subject side never ends the process. -/
theorem assignSubject_allSubj_exitsOnUser (n : LNode) (l : Nat) :
    (assignSubject D n .allSubj "" l).ExitsOnUser D ts := by
  cases h : assignSubject D n .allSubj "" l with
  | ret | overrun => trivial
  | exit log => exact absurd (assignSubject_exit h).1 (by decide)

theorem subjectThen_exitsOnUser {n : LNode} {t : SubjType} {v : String} {l : Nat}
    {k : LNode → Outcome} (ha : (assignSubject D n t v l).ExitsOnUser D ts)
    (hk : ∀ n', (k n').ExitsOnUser D ts) : (subjectThen D n t v l k).ExitsOnUser D ts := by
  unfold subjectThen
  cases h : assignSubject D n t v l with
  | exit log => rw [h] at ha; exact ha
  | overrun log => trivial
  | ret rc n' log =>
    rw [Outcome.ret_bind]
    split_ifs
    · trivial
    · exact (hk n').after log

theorem objectThen_exitsOnUser {n : LNode} {t : ObjType} {v : String} {k : LNode → Outcome}
    (hk : ∀ n', (k n').ExitsOnUser D ts) : (objectThen n t v k).ExitsOnUser D ts := by
  by_cases h : MAX_FIELDS ≤ n.o.length
  · rw [objectThen_full h]
    trivial
  · rw [objectThen_room (Nat.not_le.1 h)]
    exact hk _

theorem finishUp_exitsOnUser (n : LNode) (l : Nat) : (finishUp n l).ExitsOnUser D ts := by
  unfold finishUp
  split_ifs <;> trivial

/-- `parse_new_format` ends the process only on one of the tokens it reads. -/
theorem parseNewFormat_exitsOnUser (l : Nat) :
    ∀ state (n : LNode) toks, (parseNewFormat D l state n toks).ExitsOnUser D toks
  | _, _, [] => trivial
  | state, n, ptr :: rest => by
    have ih := fun state n' => (parseNewFormat_exitsOnUser l state n' rest).mono
      (List.subset_cons_self ptr rest)
    have hptr : [ptr] ⊆ ptr :: rest := List.cons_subset.2 ⟨List.mem_cons_self _ _, List.nil_subset _⟩
    unfold parseNewFormat
    cases hs : splitAtEq ptr with
    | some p =>
      obtain ⟨name, v⟩ := p
      dsimp only
      split_ifs
      · cases ht : D.subjNameToVal name 2 with
        | none => trivial
        | some t =>
          exact subjectThen_exitsOnUser ((assignSubject_exitsOnUser hs ht n l).mono hptr)
            fun n' => ih _ n'
      · cases D.objNameToVal name with
        | none => trivial
        | some t => exact objectThen_exitsOnUser fun n' => ih _ n'
    | none =>
      dsimp only
      split_ifs
      · exact ih _ _
      · exact subjectThen_exitsOnUser (assignSubject_allSubj_exitsOnUser n l) fun n' => ih _ n'
      · exact objectThen_exitsOnUser fun n' => ih _ n'
      · trivial

theorem colonFirst_exitsOnUser {tok name v : String} (hs : splitAtEq tok = some (name, v))
    (n : LNode) (l : Nat) : (colonFirst D n name v l).ExitsOnUser D [tok] := by
  unfold colonFirst
  by_cases hperm : strcmp name "perm" = 0
  · rw [if_pos hperm]
    split_ifs <;> trivial
  rw [if_neg hperm]
  cases ht : D.subjNameToVal name 2 with
  | none => trivial
  | some t =>
    refine subjectThen_exitsOnUser (assignSubject_exitsOnUser hs ht n l) ?_
    exact fun _ => trivial

/-- The loop of `nv_split` ends the process only on one of the tokens it reads. -/
theorem nvSplitLoop_exitsOnUser (fmt : RFormat) (l : Nat) :
    ∀ (n : LNode) toks, (nvSplitLoop D fmt l n toks).ExitsOnUser D toks
  | n, [] => finishUp_exitsOnUser n l
  | n, ptr :: rest => by
    have ih := fun n' => (nvSplitLoop_exitsOnUser fmt l n' rest).mono (List.subset_cons_self ptr rest)
    have hptr : [ptr] ⊆ ptr :: rest := List.cons_subset.2 ⟨List.mem_cons_self _ _, List.nil_subset _⟩
    unfold nvSplitLoop
    cases hs : splitAtEq ptr with
    | none =>
      dsimp only
      split_ifs
      · exact subjectThen_exitsOnUser (assignSubject_allSubj_exitsOnUser n l) ih
      · exact objectThen_exitsOnUser ih
      all_goals trivial
    | some p =>
      obtain ⟨name, v⟩ := p
      dsimp only
      split_ifs
      · have hc := (colonFirst_exitsOnUser (D := D) hs n l).mono hptr
        cases hcf : colonFirst D n name v l with
        | exit log => rw [hcf] at hc; exact hc
        | overrun log => trivial
        | ret rc n' log =>
          rw [Outcome.ret_bind]
          split_ifs
          · trivial
          · have hp := (parseNewFormat_exitsOnUser (D := D) l 0 n' rest).mono
              (List.subset_cons_self ptr rest)
            cases hpn : parseNewFormat D l 0 n' rest with
            | exit log' => rw [hpn] at hp; exact hp.after log
            | overrun log' => trivial
            | ret _ n'' log' => exact ((finishUp_exitsOnUser n'' l).after _).after _
      · cases ht : D.subjNameToVal name fmt.toNat with
        | none =>
          dsimp only
          cases D.objNameToVal name with
          | none => trivial
          | some t => exact objectThen_exitsOnUser ih
        | some t =>
          exact subjectThen_exitsOnUser ((assignSubject_exitsOnUser hs ht n l).mono hptr) ih

/-- `nv_split` ends the process only on one of the words of the line. -/
theorem nvSplit_exitsOnUser (b : String) (lineno : Nat) :
    (nvSplit D b lineno).ExitsOnUser D (strtok b) := by
  unfold nvSplit
  dsimp only
  cases strtok b with
  | nil => trivial
  | cons ptr rest =>
    dsimp only
    split_ifs
    · trivial
    · cases D.decNameToVal ptr with
      | none => trivial
      | some d => exact (nvSplitLoop_exitsOnUser _ lineno _ rest).mono (List.subset_cons_self ptr rest)

end Exit

/-- **A line ends the process only on an unknown user.** When `nv_split` calls `exit(1)`, a
token of the line is a `uid` or `auid` field, in the dialect of the line, whose value does not
start with a digit and names no user `getpwnam` knows; the last message logged is
`user v is unknown` for that value. -/
theorem nvSplit_exit_only_unknown_user (D : NameTables) (b : String) (lineno : Nat)
    (log : List Msg) (h : nvSplit D b lineno = .exit log) :
    ∃ tok ∈ strtok b, ∃ v, UnknownUser D tok v ∧ log.getLast? = some (.userUnknown v) := by
  have hx := nvSplit_exitsOnUser (D := D) b lineno
  rw [h] at hx
  exact hx

/-! ### Writes past the arrays -/

/-- Where the outcome writes past a field array, `P` holds. -/
def Outcome.OverrunIf (P : Prop) : Outcome → Prop
  | .overrun _ => P
  | .ret .. | .exit _ => True

section Overrun

variable {D : NameTables} {P Q : Prop} {r : Outcome}

theorem Outcome.OverrunIf.of_prop (hP : P) (r : Outcome) : r.OverrunIf P := by
  cases r with
  | overrun => exact hP
  | ret | exit => trivial

theorem Outcome.OverrunIf.mono (h : r.OverrunIf P) (hPQ : P → Q) : r.OverrunIf Q := by
  cases r with
  | overrun => exact hPQ h
  | ret | exit => trivial

theorem Outcome.OverrunIf.after (h : r.OverrunIf P) (log : List Msg) : (r.after log).OverrunIf P := by
  cases r with
  | overrun => exact h
  | ret | exit => trivial

theorem Outcome.OverrunIf.bind {R : Int → LNode → Prop} {k : Int → LNode → List Msg → Outcome}
    (h : r.OverrunIf P) (hr : r.Holds R) (hk : ∀ rc n log, R rc n → (k rc n log).OverrunIf P) :
    (r.bind k).OverrunIf P := by
  cases r with
  | ret rc n log => exact hk rc n log hr
  | exit => trivial
  | overrun => exact h

/-- `assign_subject` writes past `s` only when it is full; what follows it starts from a node
with at most one more subject field. -/
theorem subjectThen_overrunIf {n : LNode} {t : SubjType} {v : String} {l m : Nat}
    {k : LNode → Outcome} (hk : ∀ n', n'.o = n.o → n'.s.length ≤ n.s.length + 1 →
      (k n').OverrunIf (MAX_FIELDS < n'.s.length + n'.o.length + m)) :
    (subjectThen D n t v l k).OverrunIf (MAX_FIELDS < n.s.length + n.o.length + (m + 1)) := by
  by_cases hfull : MAX_FIELDS ≤ n.s.length
  · exact .of_prop (by omega) _
  have hn := Nat.not_le.1 hfull
  unfold subjectThen
  rcases assignSubject_frame (D := D) hn hn t v l with ⟨h, -⟩ | ⟨f, -, -, h, -⟩ | ⟨m', h, -⟩ <;>
    rw [h]
  · trivial
  · simp only [Outcome.ret_bind, if_neg (by decide : (0 : Int) ≠ 3)]
    exact ((hk (n.pushSubject f hn) rfl (by simp)).mono fun h' => by simp at h'; omega).after []
  · simp only [Outcome.ret_bind, if_neg (by decide : (2 : Int) ≠ 3)]
    exact ((hk n rfl (Nat.le_succ _)).mono fun h' => by omega).after [m']

/-- `assign_object` writes past `o` only when it is full. -/
theorem objectThen_overrunIf {n : LNode} {t : ObjType} {v : String} {m : Nat} {k : LNode → Outcome}
    (hk : ∀ n', n'.s = n.s → n'.o.length = n.o.length + 1 →
      (k n').OverrunIf (MAX_FIELDS < n'.s.length + n'.o.length + m)) :
    (objectThen n t v k).OverrunIf (MAX_FIELDS < n.s.length + n.o.length + (m + 1)) := by
  by_cases hfull : MAX_FIELDS ≤ n.o.length
  · exact .of_prop (by omega) _
  rw [objectThen_room (Nat.not_le.1 hfull)]
  exact (hk (n.pushObject _ (Nat.not_le.1 hfull)) rfl (by simp)).mono fun h => by simp at h; omega

/-- `parse_new_format` writes past an array only when the fields the node holds and the
tokens left are more than `MAX_FIELDS`: each token stores at most one field. -/
theorem parseNewFormat_overrunIf (l : Nat) :
    ∀ state (n : LNode) toks, (parseNewFormat D l state n toks).OverrunIf
      (MAX_FIELDS < n.s.length + n.o.length + toks.length)
  | _, _, [] => trivial
  | state, n, ptr :: rest => by
    have ih := fun state n' => parseNewFormat_overrunIf l state n' rest
    unfold parseNewFormat
    cases splitAtEq ptr with
    | some p =>
      obtain ⟨name, v⟩ := p
      dsimp only
      split_ifs
      · cases D.subjNameToVal name 2 with
        | none => trivial
        | some t => exact subjectThen_overrunIf fun n' _ _ => ih _ n'
      · cases D.objNameToVal name with
        | none => trivial
        | some t => exact objectThen_overrunIf fun n' _ _ => ih _ n'
    | none =>
      dsimp only
      split_ifs
      · exact (ih _ _).mono fun h => by simp only [List.length_cons]; omega
      · exact subjectThen_overrunIf fun n' _ _ => ih _ n'
      · exact objectThen_overrunIf fun n' _ _ => ih _ n'
      · trivial

theorem finishUp_overrunIf (n : LNode) (l : Nat) : (finishUp n l).OverrunIf P := by
  unfold finishUp
  split_ifs <;> trivial

/-- The loop of `nv_split` writes past an array only when the fields the node holds and the
tokens left are more than `MAX_FIELDS`. -/
theorem nvSplitLoop_overrunIf (fmt : RFormat) (l : Nat) :
    ∀ (n : LNode) toks, (nvSplitLoop D fmt l n toks).OverrunIf
      (MAX_FIELDS < n.s.length + n.o.length + toks.length)
  | n, [] => finishUp_overrunIf n l
  | n, ptr :: rest => by
    have ih := fun n' => nvSplitLoop_overrunIf fmt l n' rest
    unfold nvSplitLoop
    cases hs : splitAtEq ptr with
    | none =>
      dsimp only
      split_ifs
      · exact subjectThen_overrunIf fun n' _ _ => ih n'
      · exact objectThen_overrunIf fun n' _ _ => ih n'
      all_goals trivial
    | some p =>
      obtain ⟨name, v⟩ := p
      dsimp only
      split_ifs
      · have hc := colonFirst_length (D := D) n name v l
        have ho : (colonFirst D n name v l).OverrunIf (MAX_FIELDS < n.s.length + n.o.length + 1) := by
          rcases colonFirst_cases (D := D) n name v l with ⟨a, h⟩ | ⟨rc, m, -, h⟩ | ⟨t, h⟩ <;> rw [h]
          · trivial
          · trivial
          · exact subjectThen_overrunIf (m := 0) fun _ _ _ => trivial
        refine (ho.mono fun h => by simp only [List.length_cons]; omega).bind hc
          fun rc n' log ⟨hs', ho'⟩ => ?_
        split_ifs
        · trivial
        · refine (((parseNewFormat_overrunIf l 0 n' rest).mono fun h => ?_).bind
            (parseNewFormat_holds WriteInv.true l 0 n' rest trivial)
            fun _ n'' _ _ => (finishUp_overrunIf n'' l).after _).after log
          rw [ho'] at h
          simp only [List.length_cons]
          omega
      · cases D.subjNameToVal name fmt.toNat with
        | none =>
          dsimp only
          cases D.objNameToVal name with
          | none => trivial
          | some t => exact objectThen_overrunIf fun n' _ _ => ih n'
        | some t => exact subjectThen_overrunIf fun n' _ _ => ih n'

/-- **Only a long line writes past the arrays.** When `nv_split` writes a field past its
array, the line has more than `MAX_FIELDS` words after its decision. -/
theorem nvSplit_overrunIf (b : String) (lineno : Nat) :
    (nvSplit D b lineno).OverrunIf (MAX_FIELDS + 2 ≤ (strtok b).length) := by
  unfold nvSplit
  dsimp only
  cases strtok b with
  | nil => trivial
  | cons ptr rest =>
    dsimp only
    split_ifs
    · trivial
    · cases D.decNameToVal ptr with
      | none => trivial
      | some d =>
        refine (nvSplitLoop_overrunIf _ lineno _ rest).mono fun h => ?_
        simp only [LNode.empty, List.length_nil, List.length_cons] at h ⊢
        omega

end Overrun

/-- **Loading rules stops only on an unknown user or a line too long for the arrays.** A
sequence of calls on a store from `rules_create` fails to return only when it appends a line
on which `nv_split` calls `exit(1)`, a line with a token that is a `uid` or `auid` field
naming a user `getpwnam` does not know, the last message logged saying so; or a line with
more than `MAX_FIELDS` words after its decision, on which `nv_split` writes past a field
array. -/
theorem rules_load_exits_only_on_unknown_user (D : NameTables) (USE_AUDIT : Bool) (h0 : Heap)
    (ops : List Op) (hl : Op.run D USE_AUDIT (rulesCreate h0) ops = none) :
    ∃ b lineno, Op.append (some b) lineno ∈ ops ∧
      ((∃ log, nvSplit D b lineno = .exit log ∧
        ∃ tok ∈ strtok b, ∃ v, UnknownUser D tok v ∧ log.getLast? = some (.userUnknown v)) ∨
      (∃ log, nvSplit D b lineno = .overrun log) ∧ MAX_FIELDS + 2 ≤ (strtok b).length) := by
  rcases (Rep.create h0).run D USE_AUDIT ops with ⟨-, op, hop, hx⟩ | ⟨l, -, hs, -⟩
  · obtain ⟨b, lineno, rfl⟩ : ∃ b lineno, op = .append (some b) lineno := by
      cases op with
      | append buf lineno =>
        cases buf with
        | none => exact hx.elim (fun h => (h : False).elim) fun h => (h : False).elim
        | some b => exact ⟨b, lineno, rfl⟩
      | first | next | unsupportAudit | clear =>
        exact hx.elim (fun h => (h : False).elim) fun h => (h : False).elim
    refine ⟨b, lineno, hop, ?_⟩
    rcases hx with ⟨log, hlog⟩ | ⟨log, hlog⟩
    · exact .inl ⟨log, hlog, nvSplit_exit_only_unknown_user D b lineno log hlog⟩
    · have ho := nvSplit_overrunIf (D := D) b lineno
      rw [hlog] at ho
      exact .inr ⟨⟨log, hlog⟩, ho⟩
  · rw [hs] at hl
    cases hl

/-- A rule for a user the account database does not know, after a rule for `root`: loading
stops at the second line. -/
theorem rules_load_exits_on_ghost_user :
    let ops : List Op := [.append (some "allow perm=any uid=root : all") 1,
      .append (some "deny perm=any uid=ghost : all") 2]
    Op.run daemonTables false (rulesCreate []) ops = none ∧
      ∃ b lineno, Op.append (some b) lineno ∈ ops ∧
        ((∃ log, nvSplit daemonTables b lineno = .exit log ∧
          ∃ tok ∈ strtok b, ∃ v, UnknownUser daemonTables tok v ∧
            log.getLast? = some (.userUnknown v)) ∨
        (∃ log, nvSplit daemonTables b lineno = .overrun log) ∧ MAX_FIELDS + 2 ≤ (strtok b).length) :=
  ⟨by decide, rules_load_exits_only_on_unknown_user daemonTables false [] _ (by decide)⟩

end Fapolicyd
