import Fapolicyd.Rules.Refused

/-!
# The legacy dialect: which lines it reads, and in what order

`nv_split` reads a line in the legacy dialect when `strchr(buf, ':')` finds no
`:` anywhere in it; a `:` inside a value selects the colon dialect as a `:`
token does. In a legacy line the loop looks each `name=value` token up as a
subject field first and as an object field second, wherever the token stands:
an object field does not end the subject fields, and a subject field after it
is still read as one. Subject fields go to `s` and object fields to `o`, each
list in the order of the line, and storing a field of one kind never reads the
list of the other.

## The model

`IsLegacySubj` and `IsLegacyObj` say how the loop of a legacy line reads a
token. `Interleave ss os ws` says that the words `ws` are the words `ss` and
`os` mixed, each kept in its order.

## What is proved

* `objectThen_subjectThen` — with room in `o`, `assign_object` commutes with
  `assign_subject`.
* `nvSplitLoop_object_past_subjects` — an object token moves past the subject
  tokens after it without changing what the loop returns.
* `nvSplitLoop_interleave`, `nvSplit_legacy_interleave` — a legacy line of at
  most `MAX_FIELDS` subject tokens and at most `MAX_FIELDS` object tokens,
  mixed in any order, writes no field past either array and returns what the
  line with its subject tokens first returns, the messages included. Past the
  bound the two orders write past the arrays at different points, and C gives
  them no common meaning.
* `nvSplit_colon_inside_word_rejected` — the dialect is chosen by a `:`
  character anywhere in the line, not by a `:` token: a line whose words hold
  a `:` but none of which is `:` is read in the colon dialect, where all its
  fields are subject fields, and it is never accepted.
-/

namespace Fapolicyd

/-- The loop of a legacy line reads the token `x` as a subject field. -/
def IsLegacySubj (D : NameTables) (x : String) : Bool :=
  match splitAtEq x with
  | some (name, _) => (D.subjNameToVal name 0).isSome
  | none => false

/-- The loop of a legacy line reads the token `x` as an object field. -/
def IsLegacyObj (D : NameTables) (x : String) : Bool :=
  match splitAtEq x with
  | some (name, _) => (D.subjNameToVal name 0).isNone && (D.objNameToVal name).isSome
  | none => false

/-- `Interleave xs ys zs`: `zs` is `xs` and `ys` mixed, each kept in its order. -/
inductive Interleave {α : Type} : List α → List α → List α → Prop where
  /-- Nothing of either list. -/
  | nil : Interleave [] [] []
  /-- The next word is the next of the first list. -/
  | left {x : α} {xs ys zs : List α} : Interleave xs ys zs → Interleave (x :: xs) ys (x :: zs)
  /-- The next word is the next of the second list. -/
  | right {y : α} {xs ys zs : List α} : Interleave xs ys zs → Interleave xs (y :: ys) (y :: zs)

/-- An interleaving holds the words of both lists. -/
theorem Interleave.perm {α : Type} {xs ys zs : List α} (h : Interleave xs ys zs) :
    zs.Perm (xs ++ ys) := by
  induction h with
  | nil => exact .nil
  | left _ ih => exact ih.cons _
  | right _ ih => exact (ih.cons _).trans List.perm_middle.symm

section Legacy

variable {D : NameTables} {l : Nat}

/-- What follows `assign_subject` sees the object fields as they were. -/
theorem subjectThen_congr_objects {n : LNode} {t : SubjType} {v : String} {k₁ k₂ : LNode → Outcome}
    (hk : ∀ n', n'.o = n.o → k₁ n' = k₂ n') : subjectThen D n t v l k₁ = subjectThen D n t v l k₂ := by
  unfold subjectThen
  rcases assignSubject_cases (D := D) n t v l with h | h | ⟨f, hr, -, -, h⟩ | ⟨m, h⟩ <;> rw [h]
  · rfl
  · rfl
  · simp only [Outcome.ret_bind, hk (n.pushSubject f hr) rfl]
  · simp only [Outcome.ret_bind, hk n rfl]

/-- `assign_subject` reads and writes only the subject array: with room in the object array,
an object field stored before a subject field is stored after it. -/
theorem objectThen_subjectThen {n : LNode} (ho : n.o.length < MAX_FIELDS) (ot : ObjType)
    (ov : String) (t : SubjType) (v : String) (k : LNode → Outcome) :
    objectThen n ot ov (subjectThen D · t v l k) =
      subjectThen D n t v l fun n' => objectThen n' ot ov k := by
  rw [objectThen_room ho]
  by_cases hs : MAX_FIELDS ≤ n.s.length
  · rw [subjectThen, subjectThen, assignSubject_full (n := n.pushObject _ ho) hs,
      assignSubject_full hs]
    rfl
  unfold subjectThen
  rcases assignSubject_frame (D := D) (n := n.pushObject _ ho) (Nat.not_le.1 hs)
    (Nat.not_le.1 hs) t v l with ⟨h, h'⟩ | ⟨f, -, -, h, h'⟩ | ⟨m, h, h'⟩ <;> rw [h, h']
  · rfl
  · simp only [Outcome.ret_bind, if_neg (by decide : (0 : Int) ≠ 3), Outcome.after_nil]
    rw [objectThen_room (n := n.pushSubject _ _) ho]
    rfl
  · simp only [Outcome.ret_bind, if_neg (by decide : (2 : Int) ≠ 3), objectThen_room ho]

/-- A subject token of a legacy line is one `assign_subject`, then the rest of the loop. -/
theorem IsLegacySubj.step {x : String} (hx : IsLegacySubj D x = true) :
    ∃ t v, ∀ n ws, nvSplitLoop D .ruleFmtOrig l n (x :: ws) =
      subjectThen D n t v l (nvSplitLoop D .ruleFmtOrig l · ws) := by
  unfold IsLegacySubj at hx
  cases hs : splitAtEq x with
  | none => rw [hs] at hx; exact absurd hx Bool.false_ne_true
  | some p =>
    rw [hs] at hx
    obtain ⟨t, ht⟩ := Option.isSome_iff_exists.1 hx
    refine ⟨t, p.2, fun n ws => ?_⟩
    rw [nvSplitLoop, hs]
    dsimp only [RFormat.toNat]
    rw [if_neg (by decide), ht]

/-- An object token of a legacy line is one `assign_object`, then the rest of the loop. -/
theorem IsLegacyObj.step {y : String} (hy : IsLegacyObj D y = true) :
    ∃ t v, ∀ n ws, nvSplitLoop D .ruleFmtOrig l n (y :: ws) =
      objectThen n t v (nvSplitLoop D .ruleFmtOrig l · ws) := by
  unfold IsLegacyObj at hy
  cases hs : splitAtEq y with
  | none => rw [hs] at hy; exact absurd hy Bool.false_ne_true
  | some p =>
    rw [hs, Bool.and_eq_true, Option.isNone_iff_eq_none] at hy
    obtain ⟨t, ht⟩ := Option.isSome_iff_exists.1 hy.2
    refine ⟨t, p.2, fun n ws => ?_⟩
    rw [nvSplitLoop, hs]
    dsimp only [RFormat.toNat]
    rw [if_neg (by decide), hy.1, ht]

/-- With room in the object array, an object token moves past the subject tokens after it. -/
theorem nvSplitLoop_object_past_subjects {y : String} (hy : IsLegacyObj D y = true) :
    ∀ (ss : List String), (∀ x ∈ ss, IsLegacySubj D x = true) → ∀ n ws, n.o.length < MAX_FIELDS →
      nvSplitLoop D .ruleFmtOrig l n (y :: (ss ++ ws)) = nvSplitLoop D .ruleFmtOrig l n (ss ++ y :: ws)
  | [], _, _, _, _ => rfl
  | x :: ss, hss, n, ws, ho => by
    obtain ⟨t, v, hx⟩ := IsLegacySubj.step (l := l) (hss x (List.mem_cons_self _ _))
    obtain ⟨ot, ov, hy'⟩ := IsLegacyObj.step (l := l) hy
    simp only [List.cons_append, hy', hx]
    rw [objectThen_subjectThen ho]
    refine subjectThen_congr_objects fun n' hn' => ?_
    rw [← hy']
    exact nvSplitLoop_object_past_subjects hy ss (fun x h => hss x (List.mem_cons_of_mem _ h)) n' ws
      (hn' ▸ ho)

/-- The loop of a legacy line over subject and object tokens mixed in any order returns what
it returns over the subject tokens, then the object tokens, from a node with room for every
object token. -/
theorem nvSplitLoop_interleave {ss os ws : List String} (h : Interleave ss os ws)
    (hs : ∀ x ∈ ss, IsLegacySubj D x = true) (ho : ∀ y ∈ os, IsLegacyObj D y = true) (n : LNode)
    (hn : n.o.length + os.length ≤ MAX_FIELDS) :
    nvSplitLoop D .ruleFmtOrig l n ws = nvSplitLoop D .ruleFmtOrig l n (ss ++ os) := by
  induction h generalizing n with
  | nil => rfl
  | left _ ih =>
    obtain ⟨t, v, hx⟩ := IsLegacySubj.step (l := l) (hs _ (List.mem_cons_self _ _))
    rw [List.cons_append, hx, hx]
    exact subjectThen_congr_objects fun n' hn' =>
      ih (fun x h => hs x (List.mem_cons_of_mem _ h)) ho n' (hn' ▸ hn)
  | @right y xs ys _ _ ih =>
    have hy := ho _ (List.mem_cons_self _ _)
    have hroom : n.o.length < MAX_FIELDS := by simp only [List.length_cons] at hn; omega
    obtain ⟨ot, ov, hy'⟩ := IsLegacyObj.step (l := l) hy
    rw [hy', objectThen_room hroom, ih hs (fun y h => ho y (List.mem_cons_of_mem _ h)) _
      (by simp at hn ⊢; omega),
      ← objectThen_room hroom ot ov (nvSplitLoop D .ruleFmtOrig l · (xs ++ ys)), ← hy']
    exact nvSplitLoop_object_past_subjects hy _ hs n _ hroom

/-- An outcome that is not a write past an array. -/
def Outcome.NoOverrun : Outcome → Prop
  | .overrun _ => False
  | _ => True

theorem Outcome.noOverrun_iff {r : Outcome} : r.NoOverrun ↔ ∀ log, r ≠ .overrun log := by
  cases r <;> simp [Outcome.NoOverrun]

theorem Outcome.NoOverrun.after {r : Outcome} (h : r.NoOverrun) (log : List Msg) :
    (r.after log).NoOverrun := by
  cases r <;> trivial

/-- With room in the subject array, `assign_subject` does not write past it, and the loop goes
on from a node with at most one more subject field and the same object fields. -/
theorem subjectThen_noOverrun {n : LNode} (hn : n.s.length < MAX_FIELDS) {t : SubjType}
    {v : String} {k : LNode → Outcome}
    (hk : ∀ n', n'.o = n.o → n'.s.length ≤ n.s.length + 1 → (k n').NoOverrun) :
    (subjectThen D n t v l k).NoOverrun := by
  unfold subjectThen
  rcases assignSubject_frame (D := D) hn hn t v l with ⟨h, -⟩ | ⟨f, -, -, h, -⟩ | ⟨m, h, -⟩ <;> rw [h]
  · trivial
  · simp only [Outcome.ret_bind, if_neg (by decide : (0 : Int) ≠ 3)]
    exact (hk (n.pushSubject f hn) rfl (by simp)).after []
  · simp only [Outcome.ret_bind, if_neg (by decide : (2 : Int) ≠ 3)]
    exact (hk n rfl (Nat.le_succ _)).after [m]

/-- The loop over object tokens, from a node with room for each, writes no field past `o`. -/
theorem nvSplitLoop_objects_noOverrun :
    ∀ (os : List String), (∀ y ∈ os, IsLegacyObj D y = true) → ∀ n : LNode,
      n.o.length + os.length ≤ MAX_FIELDS → (nvSplitLoop D .ruleFmtOrig l n os).NoOverrun
  | [], _, n, _ => by rw [nvSplitLoop, finishUp]; split_ifs <;> trivial
  | y :: os, ho, n, hn => by
    have hroom : n.o.length < MAX_FIELDS := by simp only [List.length_cons] at hn; omega
    obtain ⟨ot, ov, hy⟩ := IsLegacyObj.step (l := l) (ho y (List.mem_cons_self _ _))
    rw [hy, objectThen_room hroom]
    exact nvSplitLoop_objects_noOverrun os (fun y h => ho y (List.mem_cons_of_mem _ h)) _
      (by simp at hn ⊢; omega)

/-- The loop over subject tokens, from a node with room for each, writes no field past `s`,
when what follows does not from the nodes it leaves. -/
theorem nvSplitLoop_subjects_noOverrun {rest : List String} :
    ∀ (ss : List String), (∀ x ∈ ss, IsLegacySubj D x = true) → ∀ n : LNode,
      n.s.length + ss.length ≤ MAX_FIELDS →
      (∀ n' : LNode, n'.o = n.o → (nvSplitLoop D .ruleFmtOrig l n' rest).NoOverrun) →
      (nvSplitLoop D .ruleFmtOrig l n (ss ++ rest)).NoOverrun
  | [], _, n, _, hrest => hrest n rfl
  | x :: ss, hs, n, hn, hrest => by
    obtain ⟨t, v, hx⟩ := IsLegacySubj.step (l := l) (hs x (List.mem_cons_self _ _))
    rw [List.cons_append, hx]
    refine subjectThen_noOverrun (by simp only [List.length_cons] at hn; omega) fun n' ho hs' => ?_
    exact nvSplitLoop_subjects_noOverrun ss (fun x h => hs x (List.mem_cons_of_mem _ h)) n'
      (by simp only [List.length_cons] at hn; omega) fun n'' ho' => hrest n'' (ho'.trans ho)

/-- **A legacy line reads its fields in any order.** A line of blank-free words without `:`
whose fields are at most `MAX_FIELDS` subject tokens and at most `MAX_FIELDS` object tokens,
mixed in any order, writes no field past either array, and returns the code, the rule and
the messages of the line with its subject tokens first: an object field does not end the
subject fields. -/
theorem nvSplit_legacy_interleave {d : String} {ss os ws : List String} (h : Interleave ss os ws)
    (hs : ∀ x ∈ ss, IsLegacySubj D x = true) (ho : ∀ y ∈ os, IsLegacyObj D y = true)
    (hss : ss.length ≤ MAX_FIELDS) (hos : os.length ≤ MAX_FIELDS)
    (hwords : ∀ x ∈ d :: ws, x.data ≠ [] ∧ ' ' ∉ x.data ∧ ':' ∉ x.data) :
    nvSplit D (unwords (d :: ws)) l = nvSplit D (unwords (d :: (ss ++ os))) l ∧
      ∀ log, nvSplit D (unwords (d :: ws)) l ≠ .overrun log := by
  have hmem : ∀ x, x ∈ d :: (ss ++ os) → x ∈ d :: ws := fun x hx =>
    (h.perm.cons d).mem_iff.2 hx
  have hwords' : ∀ x ∈ d :: (ss ++ os), x.data ≠ [] ∧ ' ' ∉ x.data ∧ ':' ∉ x.data :=
    fun x hx => hwords x (hmem x hx)
  have horig : ∀ L : List String, (∀ x ∈ L, ':' ∉ x.data) → lineFormat (unwords L) = .ruleFmtOrig :=
    fun L hL => if_neg fun hc => by
      obtain ⟨x, hx, hcx⟩ := (mem_unwords (by decide)).1 hc
      exact hL x hx hcx
  have h₁ := horig _ fun x hx => (hwords x hx).2.2
  have heq : nvSplit D (unwords (d :: ws)) l = nvSplit D (unwords (d :: (ss ++ os))) l := by
    refine nvSplit_congr_loop id (fun x hx => ⟨(hwords x hx).1, (hwords x hx).2.1⟩)
      (fun x hx => ⟨(hwords' x hx).1, (hwords' x hx).2.1⟩)
      (h₁.trans (horig _ fun x hx => (hwords' x hx).2.2).symm) fun n _ hno => ?_
    rw [h₁]
    exact nvSplitLoop_interleave h hs ho n (by simpa [hno] using hos)
  refine ⟨heq, Outcome.noOverrun_iff.1 ?_⟩
  rw [heq, nvSplit, strtok_unwords (fun x hx => (hwords' x hx).1) (fun x hx => (hwords' x hx).2.1),
    horig _ fun x hx => (hwords' x hx).2.2]
  dsimp only
  split_ifs
  · trivial
  cases D.decNameToVal d with
  | none => trivial
  | some dec =>
    exact nvSplitLoop_subjects_noOverrun ss hs _ (by simpa [LNode.empty] using hss) fun n' ho' =>
      nvSplitLoop_objects_noOverrun os ho n' (by rw [ho']; simpa [LNode.empty] using hos)

/-- The line `deny path=/etc/shadow uid=0`, whose subject field stands after its object field,
is the rule `deny uid=0 path=/etc/shadow`. -/
theorem nvSplit_legacy_object_first :
    nvSplit daemonTables (unwords ["deny", "path=/etc/shadow", "uid=0"]) 1 =
      nvSplit daemonTables (unwords ["deny", "uid=0", "path=/etc/shadow"]) 1 ∧
    nvSplit daemonTables "deny path=/etc/shadow uid=0" 1 =
      .ret 0 { d := DENY, a := .openAcc, s := [⟨.uid, .val 0⟩], o := [⟨.path, "/etc/shadow", 0⟩],
               format := .ruleFmtOrig } [] :=
  ⟨(@nvSplit_legacy_interleave daemonTables 1 "deny" ["uid=0"] ["path=/etc/shadow"] _
      (.right (.left .nil)) (by decide) (by decide) (by decide) (by decide) (by decide)).1,
    by decide⟩

/-! ### A `:` inside a word -/

/-- **A `:` inside a word refuses the line.** A line of blank-free words in which no word is
the token `:` but some word holds the character `:` is read in the colon dialect, where
`strchr` puts it; when its first field is a `name=value`, every field is then read as a
subject field, and `nv_split` never accepts the line. -/
theorem nvSplit_colon_inside_word_rejected {d w : String} {ws : List String}
    (hw : splitAtEq w ≠ none) (hsep : ":" ∉ ws) (hcol : ∃ x ∈ d :: w :: ws, ':' ∈ x.data)
    (hwords : ∀ x ∈ d :: w :: ws, x.data ≠ [] ∧ ' ' ∉ x.data) :
    (nvSplit D (unwords (d :: w :: ws)) l).Holds fun rc _ => rc ≠ 0 :=
  nvSplit_colon_no_objects hw
    (fun n hn => parseNewFormat_subjects_holds (fun _ _ _ h _ => h) n ws hsep hn) hcol hwords

/-- The legacy line `allow exe=/usr/bin/app path=/opt/app:data` is refused with code `7`, its
object read as an unknown subject field, while the same line with the path `/opt/appdata` is
accepted. -/
theorem nvSplit_colon_in_path_rejected :
    (nvSplit daemonTables (unwords ["allow", "exe=/usr/bin/app", "path=/opt/app:data"]) 1).Holds
        (fun rc _ => rc ≠ 0) ∧
    nvSplit daemonTables "allow exe=/usr/bin/app path=/opt/app:data" 1 =
      .ret 7 { d := ALLOW, a := .openAcc, s := [⟨.exe, .str "/usr/bin/app"⟩], o := [],
               format := .ruleFmtColon } [.fieldUnknown "path" 1, .objectMissing 1] ∧
    nvSplit daemonTables "allow exe=/usr/bin/app path=/opt/appdata" 1 =
      .ret 0 { d := ALLOW, a := .openAcc, s := [⟨.exe, .str "/usr/bin/app"⟩],
               o := [⟨.path, "/opt/appdata", 0⟩], format := .ruleFmtOrig } [] :=
  ⟨@nvSplit_colon_inside_word_rejected daemonTables 1 "allow" "exe=/usr/bin/app"
      ["path=/opt/app:data"] (by decide) (by decide) ⟨"path=/opt/app:data", by decide, by decide⟩
      (by decide),
    by decide, by decide⟩

end Legacy

end Fapolicyd
