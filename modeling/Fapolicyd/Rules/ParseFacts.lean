import Fapolicyd.Rules.Parse

/-!
# What `nv_split` accepts

Four facts about the parser, each over every line. `assign_subject` stores a
field at index `s_count`, refuses the value and leaves the node alone, ends the
process, or writes past the array when `s_count` is `MAX_FIELDS`; it never
returns `3`, so the `-1` that `nv_split` returns when it sees a `3` is dead:
`-1` means a blank or comment line and nothing else (`nvSplit_skip_iff`).
Every rule `nv_split` accepts has a subject field and an object field
(`nvSplit_accepts_nonempty`). Every field of every node it returns is stored as
the assignments store them: a pattern holds the code of `ld_so` or `static`, a
string type a string, and a directory its length (`nvSplit_stored`). And no
routine bounds the number of fields before it writes one: a legacy line with
more than `MAX_FIELDS` subject fields, or object fields, writes the field after
the last slot (`nvSplit_overflows_subject_array`).

The routines' outcomes are read through `Outcome.Holds P`, "if it returns, its
code and node satisfy `P`". Each loop is walked once: `nvSplitLoop_holds`
carries a property of the nodes that every write keeps (`WriteInv`) through
`parse_new_format` and the loop of `nv_split`, together with a property of the
codes and of what `finish_up` returns; the facts above are its instances.
-/

namespace Fapolicyd

/-- If the routine returns, its code and node satisfy `P`. -/
def Outcome.Holds (P : Int → LNode → Prop) : Outcome → Prop
  | .ret rc n _ => P rc n
  | .exit _ | .overrun _ => True

@[simp] theorem Outcome.holds_ret {P : Int → LNode → Prop} {rc : Int} {n : LNode} {log : List Msg} :
    (Outcome.ret rc n log).Holds P ↔ P rc n := Iff.rfl

@[simp] theorem Outcome.holds_exit {P : Int → LNode → Prop} {log : List Msg} :
    (Outcome.exit log).Holds P := trivial

@[simp] theorem Outcome.holds_overrun {P : Int → LNode → Prop} {log : List Msg} :
    (Outcome.overrun log).Holds P := trivial

@[simp] theorem Outcome.holds_after {P : Int → LNode → Prop} {log : List Msg} {r : Outcome} :
    (r.after log).Holds P ↔ r.Holds P := by
  cases r <;> rfl

theorem Outcome.Holds.mono {P Q : Int → LNode → Prop} {r : Outcome} (h : r.Holds P)
    (hPQ : ∀ rc n, P rc n → Q rc n) : r.Holds Q := by
  cases r with
  | ret rc n log => exact hPQ rc n h
  | exit | overrun => trivial

theorem Outcome.Holds.and {P Q : Int → LNode → Prop} {r : Outcome} (hP : r.Holds P)
    (hQ : r.Holds Q) : r.Holds fun rc n => P rc n ∧ Q rc n := by
  cases r with
  | ret rc n log => exact ⟨hP, hQ⟩
  | exit | overrun => trivial

/-- What holds after a call that returns carries over the rest of the routine. -/
theorem Outcome.Holds.bind {P Q : Int → LNode → Prop} {r : Outcome} (h : r.Holds Q)
    {k : Int → LNode → List Msg → Outcome} (hk : ∀ rc n log, Q rc n → (k rc n log).Holds P) :
    (r.bind k).Holds P := by
  cases r with
  | ret rc n log => exact hk rc n log h
  | exit | overrun => trivial

section Facts

variable {D : NameTables}

/-- A subject field as `assign_subject` stores it: a pattern holds the code of `ld_so` or
of `static`, and a field of a string type holds a string. -/
def SubjectAttr.Stored (f : SubjectAttr) : Prop :=
  (f.type = .pattern → f.value = .val PATTERN_LD_SO_VAL ∨ f.value = .val PATTERN_STATIC_VAL) ∧
  (f.type.isStr = true → ∃ s, f.value = .str s)

theorem SubjectAttr.stored_str {t : SubjType} (hs : t.isStr = true) (s : String) :
    SubjectAttr.Stored ⟨t, .str s⟩ :=
  ⟨fun hp => by cases (hp : t = .pattern); exact (Bool.false_ne_true hs).elim, fun _ => ⟨s, rfl⟩⟩

theorem SubjectAttr.stored_pattern {t : SubjType} {v : SubjValue} (hp : t = .pattern)
    (hv : v = .val PATTERN_LD_SO_VAL ∨ v = .val PATTERN_STATIC_VAL) : SubjectAttr.Stored ⟨t, v⟩ :=
  ⟨fun _ => hv, fun hs => by cases hp; exact (Bool.false_ne_true hs).elim⟩

theorem SubjectAttr.stored_other {t : SubjType} (hs : ¬t.isStr = true) (hp : ¬t = .pattern)
    (v : SubjValue) : SubjectAttr.Stored ⟨t, v⟩ :=
  ⟨fun h => absurd h hp, fun h => absurd h hs⟩

/-- `assign_subject` on a full array writes past it. -/
theorem assignSubject_full {n : LNode} (h : MAX_FIELDS ≤ n.s.length) (t : SubjType) (v : String)
    (l : Nat) : assignSubject D n t v l = .overrun [] := by
  rw [assignSubject, dif_pos h]

/-- What `assign_subject` does, on any two nodes with room at once: it stores the same field
in both, or refuses the value in both with the same message, or ends the process in both.
Its choice reads the type and the value, never the node. -/
theorem assignSubject_frame {n n' : LNode} (hn : n.s.length < MAX_FIELDS)
    (hn' : n'.s.length < MAX_FIELDS) (t : SubjType) (v : String) (l : Nat) :
    (assignSubject D n t v l = .exit [.userUnknown v] ∧
      assignSubject D n' t v l = .exit [.userUnknown v]) ∨
    (∃ f : SubjectAttr, f.type = t ∧ f.Stored ∧
      assignSubject D n t v l = .ret 0 (n.pushSubject f hn) [] ∧
      assignSubject D n' t v l = .ret 0 (n'.pushSubject f hn') []) ∨
    ∃ m, assignSubject D n t v l = .ret 2 n [m] ∧ assignSubject D n' t v l = .ret 2 n' [m] := by
  unfold assignSubject
  rw [dif_neg (Nat.not_le.2 hn), dif_neg (Nat.not_le.2 hn')]
  dsimp only
  by_cases hs : t.isStr = true
  · rw [if_pos hs, if_pos hs]
    exact .inr (.inl ⟨_, rfl, SubjectAttr.stored_str hs _, rfl, rfl⟩)
  rw [if_neg hs, if_neg hs]
  by_cases hp : t = .pattern
  · rw [if_pos hp, if_pos hp]
    by_cases h1 : strcmp v PATTERN_LD_SO_STR = 0
    · rw [if_pos h1, if_pos h1]
      exact .inr (.inl ⟨_, rfl, SubjectAttr.stored_pattern hp (.inl rfl), rfl, rfl⟩)
    rw [if_neg h1, if_neg h1]
    by_cases h2 : strcmp v PATTERN_STATIC_STR = 0
    · rw [if_pos h2, if_pos h2]
      exact .inr (.inl ⟨_, rfl, SubjectAttr.stored_pattern hp (.inr rfl), rfl, rfl⟩)
    rw [if_neg h2, if_neg h2]
    exact .inr (.inr ⟨_, rfl, rfl⟩)
  rw [if_neg hp, if_neg hp]
  by_cases hd : isdigit v = true
  · rw [if_pos hd, if_pos hd]
    cases strtol v with
    | some k => exact .inr (.inl ⟨_, rfl, SubjectAttr.stored_other hs hp _, rfl, rfl⟩)
    | none => exact .inr (.inr ⟨_, rfl, rfl⟩)
  rw [if_neg hd, if_neg hd]
  by_cases hu : t = .auid ∨ t = .uid
  · rw [if_pos hu, if_pos hu]
    cases D.getpwnam v with
    | some uid => exact .inr (.inl ⟨_, rfl, SubjectAttr.stored_other hs hp _, rfl, rfl⟩)
    | none => exact .inl ⟨rfl, rfl⟩
  rw [if_neg hu, if_neg hu]
  exact .inr (.inl ⟨_, rfl, SubjectAttr.stored_other hs hp _, rfl, rfl⟩)

/-- What `assign_subject` can do: write past a full array, end the process on an unknown
user, store at `s[s_count]` one field of the given type, as `SubjectAttr.Stored` says, or
return `2` with the node unchanged. -/
theorem assignSubject_cases (n : LNode) (t : SubjType) (v : String) (l : Nat) :
    assignSubject D n t v l = .overrun [] ∨ assignSubject D n t v l = .exit [.userUnknown v] ∨
    (∃ f : SubjectAttr, ∃ h, f.type = t ∧ f.Stored ∧
      assignSubject D n t v l = .ret 0 (n.pushSubject f h) []) ∨
    ∃ m, assignSubject D n t v l = .ret 2 n [m] := by
  by_cases hfull : MAX_FIELDS ≤ n.s.length
  · exact .inl (assignSubject_full hfull t v l)
  have hn := Nat.not_le.1 hfull
  rcases assignSubject_frame (D := D) hn hn t v l with ⟨h, -⟩ | ⟨f, hf, hst, h, -⟩ | ⟨m, h, -⟩
  · exact .inr (.inl h)
  · exact .inr (.inr (.inl ⟨f, hn, hf, hst, h⟩))
  · exact .inr (.inr (.inr ⟨m, h⟩))

/-- `assign_object` on a full array writes past it. -/
theorem assignObject_full {n : LNode} (h : MAX_FIELDS ≤ n.o.length) (t : ObjType) (v : String) :
    assignObject n t v = .overrun [] := by
  rw [assignObject, dif_pos h]

/-- With room, the rest of the loop goes on from the node with the object field stored. -/
theorem objectThen_room {n : LNode} (h : n.o.length < MAX_FIELDS) (t : ObjType) (v : String)
    (k : LNode → Outcome) :
    objectThen n t v k = k (n.pushObject ⟨t, v, if t = .odir then v.length else 0⟩ h) := by
  rw [objectThen, assignObject, dif_neg (Nat.not_le.2 h), Outcome.ret_bind, Outcome.after_nil]

theorem objectThen_full {n : LNode} (h : MAX_FIELDS ≤ n.o.length) (t : ObjType) (v : String)
    (k : LNode → Outcome) : objectThen n t v k = .overrun [] := by
  rw [objectThen, assignObject_full h, Outcome.overrun_bind]

/-- The token `:` moves `parse_new_format` from the subject fields to the object fields. -/
theorem parseNewFormat_colon {l : Nat} (n : LNode) (rest : List String) :
    parseNewFormat D l 0 n (":" :: rest) = parseNewFormat D l 1 n rest := by
  rw [parseNewFormat]
  simp [show splitAtEq ":" = none by decide]

/-- A property of nodes that every write of the parser keeps: storing a subject field as
`assign_subject` stores it, storing an object field as `assign_object` does, and setting
the access. -/
structure WriteInv (I : LNode → Prop) : Prop where
  subj : ∀ n (f : SubjectAttr) h, I n → f.Stored → I (n.pushSubject f h)
  obj : ∀ n t v h, I n → I (n.pushObject ⟨t, v, if t = .odir then v.length else 0⟩ h)
  acc : ∀ n a, I n → I { n with a }

theorem WriteInv.true : WriteInv fun _ => True :=
  ⟨fun _ _ _ _ _ => trivial, fun _ _ _ _ _ => trivial, fun _ _ _ => trivial⟩

/-! ### One induction per loop -/

section Loops

variable {I : LNode → Prop} {P : Int → LNode → Prop}

theorem subjectThen_holds (hI : ∀ n (f : SubjectAttr) h, I n → f.Stored → I (n.pushSubject f h))
    {n : LNode} (hn : I n) {t : SubjType} {v : String}
    {l : Nat} {k : LNode → Outcome} (hk : ∀ n', I n' → (k n').Holds P) :
    (subjectThen D n t v l k).Holds P := by
  unfold subjectThen
  rcases assignSubject_cases (D := D) n t v l with h | h | ⟨f, hr, -, hf, h⟩ | ⟨m, h⟩ <;> rw [h]
  · trivial
  · trivial
  · simpa using hk _ (hI n f hr hn hf)
  · simpa using hk n hn

theorem objectThen_holds (hI : WriteInv I) {n : LNode} (hn : I n) (t : ObjType) (v : String)
    {k : LNode → Outcome} (hk : ∀ n', I n' → (k n').Holds P) : (objectThen n t v k).Holds P := by
  by_cases h : MAX_FIELDS ≤ n.o.length
  · rw [objectThen_full h]; trivial
  · rw [objectThen_room (Nat.not_le.1 h)]
    exact hk _ (hI.obj n t v _ hn)

/-- What the first `name=value` token of a colon-dialect line can do: set the access and
return `0`, return a positive code with its message and the node unchanged, or store a
subject field through `assign_subject`. -/
theorem colonFirst_cases (n : LNode) (name v : String) (l : Nat) :
    (∃ a, colonFirst D n name v l = .ret 0 { n with a } []) ∨
    (∃ rc m, 0 < rc ∧ colonFirst D n name v l = .ret rc n [m]) ∨
    ∃ t, colonFirst D n name v l = subjectThen D n t v l fun n' => .ret 0 n' [] := by
  generalize hc : colonFirst D n name v l = c
  unfold colonFirst at hc
  by_cases hperm : strcmp name "perm" = 0
  · rw [if_pos hperm] at hc
    by_cases hx : strcmp v "execute" = 0
    · rw [if_pos hx] at hc; subst hc; exact .inl ⟨_, rfl⟩
    rw [if_neg hx] at hc
    by_cases hy : strcmp v "any" = 0
    · rw [if_pos hy] at hc; subst hc; exact .inl ⟨_, rfl⟩
    rw [if_neg hy] at hc
    by_cases ho : strcmp v "open" ≠ 0
    · rw [if_pos ho] at hc; subst hc; exact .inr (.inl ⟨_, _, by decide, rfl⟩)
    rw [if_neg ho] at hc; subst hc; exact .inl ⟨n.a, rfl⟩
  rw [if_neg hperm] at hc
  split at hc <;> subst hc
  · exact .inr (.inl ⟨_, _, by decide, rfl⟩)
  · exact .inr (.inr ⟨_, rfl⟩)

theorem colonFirst_holds (hI : WriteInv I) {n : LNode} (hn : I n) (name v : String) (l : Nat) :
    (colonFirst D n name v l).Holds fun rc m => 0 ≤ rc ∧ I m := by
  rcases colonFirst_cases (D := D) n name v l with ⟨a, h⟩ | ⟨rc, m, hrc, h⟩ | ⟨t, h⟩ <;> rw [h]
  · exact ⟨Int.le_refl 0, hI.acc n a hn⟩
  · exact ⟨Int.le_of_lt hrc, hn⟩
  · exact subjectThen_holds hI.subj hn fun _ h' => ⟨Int.le_refl 0, h'⟩

/-- Every node `parse_new_format` passes on keeps a property that every write keeps. -/
theorem parseNewFormat_holds (hI : WriteInv I) (l : Nat) :
    ∀ state (n : LNode) toks, I n → (parseNewFormat D l state n toks).Holds fun _ m => I m
  | _, n, [], hn => hn
  | state, n, ptr :: rest, hn => by
    unfold parseNewFormat
    cases splitAtEq ptr with
    | some p =>
      obtain ⟨name, v⟩ := p
      dsimp only
      split_ifs
      · cases D.subjNameToVal name 2 with
        | none => exact hn
        | some t => exact subjectThen_holds hI.subj hn fun n' h' => parseNewFormat_holds hI l _ n' rest h'
      · cases D.objNameToVal name with
        | none => exact hn
        | some t => exact objectThen_holds hI hn _ _ fun n' h' => parseNewFormat_holds hI l _ n' rest h'
    | none =>
      dsimp only
      split_ifs
      · exact parseNewFormat_holds hI l _ _ rest hn
      · exact subjectThen_holds hI.subj hn fun n' h' => parseNewFormat_holds hI l _ n' rest h'
      · exact objectThen_holds hI hn _ _ fun n' h' => parseNewFormat_holds hI l _ n' rest h'
      · exact hn

/-- Before the `:`, `parse_new_format` writes only subject fields: a property of nodes that
every subject write keeps holds of the node it passes on, on tokens without a `:`. -/
theorem parseNewFormat_subjects_holds
    (hI : ∀ n (f : SubjectAttr) h, I n → f.Stored → I (n.pushSubject f h)) {l : Nat} :
    ∀ (n : LNode) (toks : List String), ":" ∉ toks → I n →
      (parseNewFormat D l 0 n toks).Holds fun _ m => I m
  | n, [], _, hn => hn
  | n, w :: toks, hsep, hn => by
    have ih := fun n' h' => parseNewFormat_subjects_holds hI (l := l) n' toks
      (fun h => hsep (List.mem_cons_of_mem _ h)) h'
    rw [parseNewFormat.eq_2]
    cases splitAtEq w with
    | some p =>
      dsimp only
      rw [if_pos rfl]
      cases D.subjNameToVal p.1 2 with
      | none => exact hn
      | some t => exact subjectThen_holds hI hn ih
    | none =>
      dsimp only
      have hc : ¬(0 = 0 ∧ strcmp w ":" = 0) := fun h =>
        hsep (strcmp_eq_zero.1 h.2 ▸ List.mem_cons_self _ _)
      rw [if_neg hc]
      by_cases ha : strcmp w "all" = 0
      · rw [if_pos ha, if_pos rfl]; exact subjectThen_holds hI hn ih
      · rw [if_neg ha]; exact hn

/-- A property of the nodes `finish_up` returns and of every error code, on nodes that keep
a property every write keeps, holds of whatever the loop of `nv_split` returns. -/
theorem nvSplitLoop_holds {fmt : RFormat} {l : Nat} (hI : WriteInv I)
    (hfin : ∀ n, I n → (finishUp n l).Holds P) (herr : ∀ rc n, I n → 0 < rc → P rc n) :
    ∀ n toks, I n → (nvSplitLoop D fmt l n toks).Holds P
  | n, [], hn => hfin n hn
  | n, ptr :: rest, hn => by
    unfold nvSplitLoop
    cases splitAtEq ptr with
    | none =>
      dsimp only
      split_ifs
      · exact subjectThen_holds hI.subj hn fun n' h' => nvSplitLoop_holds hI hfin herr n' rest h'
      · exact objectThen_holds hI hn _ _ fun n' h' => nvSplitLoop_holds hI hfin herr n' rest h'
      · exact herr _ _ hn (by decide)
      · exact herr _ _ hn (by decide)
    | some p =>
      obtain ⟨name, v⟩ := p
      dsimp only
      split_ifs
      · refine (colonFirst_holds (D := D) hI hn name v l).bind fun rc n' log ⟨hrc0, hn'⟩ => ?_
        split_ifs with hrc
        · exact herr _ _ hn' (by omega)
        · exact Outcome.holds_after.2 ((parseNewFormat_holds (D := D) hI l 0 n' rest hn').bind
            fun _ n'' _ h => by simpa using hfin n'' h)
      · cases D.subjNameToVal name fmt.toNat with
        | none =>
          dsimp only
          cases D.objNameToVal name with
          | none => exact herr _ _ hn (by decide)
          | some t => exact objectThen_holds hI hn _ _ fun n' h' => nvSplitLoop_holds hI hfin herr n' rest h'
        | some t => exact subjectThen_holds hI.subj hn fun n' h' => nvSplitLoop_holds hI hfin herr n' rest h'

end Loops

/-! ### The codes `nv_split` returns -/

/-- `finish_up` hands back the node it was given, with a code that is never negative and is
`0` only for a node with a subject field and an object field. -/
theorem finishUp_holds (n : LNode) (l : Nat) :
    (finishUp n l).Holds fun rc m => m = n ∧ 0 ≤ rc ∧ (rc = 0 → 0 < n.s.length ∧ 0 < n.o.length) := by
  unfold finishUp
  split_ifs with hs ho
  · exact ⟨rfl, by decide, fun h => absurd h (by decide)⟩
  · exact ⟨rfl, by decide, fun h => absurd h (by decide)⟩
  · exact ⟨rfl, by decide, fun _ => ⟨Nat.pos_of_ne_zero hs, Nat.pos_of_ne_zero ho⟩⟩

/-- Every rule `nv_split` accepts has a subject field and an object field. -/
theorem nvSplit_accepts_nonempty (buf : String) (l : Nat) :
    (nvSplit D buf l).Holds fun rc n => rc = 0 → 0 < n.s.length ∧ 0 < n.o.length := by
  unfold nvSplit
  dsimp only
  split
  · exact fun h => absurd h (by decide)
  · split_ifs
    · exact fun h => absurd h (by decide)
    · split
      · exact fun h => absurd h (by decide)
      · exact nvSplitLoop_holds WriteInv.true (fun n _ => (finishUp_holds n l).mono fun _ _ h => h.1 ▸ h.2.2)
          (fun _ _ _ h h0 => absurd h0 (by omega)) _ _ trivial

/-- An object field as `assign_object` stores it: `len` caches the length of a directory
and is `0` otherwise. -/
def ObjectAttr.Stored (f : ObjectAttr) : Prop := f.len = if f.type = .odir then f.o.length else 0

/-- Every field of the node is stored as `assign_subject` and `assign_object` store them. -/
def LNode.Stored (n : LNode) : Prop := (∀ f ∈ n.s, f.Stored) ∧ ∀ f ∈ n.o, f.Stored

theorem LNode.stored_of_nil {n : LNode} (hs : n.s = []) (ho : n.o = []) : n.Stored := by
  simp [LNode.Stored, hs, ho]

/-- Every write of the parser keeps the fields stored. -/
theorem LNode.stored_writeInv : WriteInv LNode.Stored where
  subj n f _ hn hf :=
    ⟨fun g hg => (List.mem_append.1 hg).elim (hn.1 g) fun hg => List.mem_singleton.1 hg ▸ hf, hn.2⟩
  obj n t v _ hn := ⟨hn.1, fun f hf => by
    rcases List.mem_append.1 hf with hf | hf
    · exact hn.2 f hf
    · rw [List.mem_singleton.1 hf]; rfl⟩
  acc _ _ hn := hn

/-- Every node `nv_split` returns, whatever its code, holds its fields as the assignments
store them. -/
theorem nvSplit_stored (buf : String) (l : Nat) : (nvSplit D buf l).Holds fun _ n => n.Stored := by
  unfold nvSplit
  dsimp only
  split
  · exact LNode.stored_of_nil rfl rfl
  · split_ifs
    · exact LNode.stored_of_nil rfl rfl
    · split
      · exact LNode.stored_of_nil rfl rfl
      · exact nvSplitLoop_holds LNode.stored_writeInv
          (fun n hn => (finishUp_holds n l).mono fun _ _ h => h.1 ▸ hn)
          (fun _ _ h _ => h) _ _ (LNode.stored_of_nil rfl rfl)

/-! ### Nothing bounds the field count -/

variable (D)

/-- A legacy `uid=0` with room in `s` is stored as the number `0`. -/
theorem nvSplitLoop_uid_step (hu : D.subjNameToVal "uid" RFormat.ruleFmtOrig.toNat = some .uid)
    {l : Nat} {n : LNode} (h : n.s.length < MAX_FIELDS) (rest : List String) :
    nvSplitLoop D .ruleFmtOrig l n ("uid=0" :: rest) =
      nvSplitLoop D .ruleFmtOrig l (n.pushSubject ⟨.uid, .val 0⟩ h) rest := by
  have ha : assignSubject D n .uid "0" l = .ret 0 (n.pushSubject ⟨.uid, .val 0⟩ h) [] := by
    rw [assignSubject, dif_neg (Nat.not_le.2 h)]
    simp [SubjType.isStr, SubjType.toNat, show isdigit "0" = true by decide,
      show strtol "0" = some 0 by decide]
  simp [nvSplitLoop, show splitAtEq "uid=0" = some ("uid", "0") by decide, hu, subjectThen, ha]

/-- A legacy `path=/x` with room in `o` is stored. -/
theorem nvSplitLoop_path_step (hp0 : D.subjNameToVal "path" RFormat.ruleFmtOrig.toNat = none)
    (hp : D.objNameToVal "path" = some .path) {l : Nat} {n : LNode} (h : n.o.length < MAX_FIELDS)
    (rest : List String) :
    nvSplitLoop D .ruleFmtOrig l n ("path=/x" :: rest) =
      nvSplitLoop D .ruleFmtOrig l (n.pushObject ⟨.path, "/x", 0⟩ h) rest := by
  simp [nvSplitLoop, show splitAtEq "path=/x" = some ("path", "/x") by decide, hp0, hp,
    objectThen_room h]

/-- `k` legacy fields `uid=0` that do not fit in `s`: the loop stores them while `s` has room
and then writes past it. -/
theorem nvSplitLoop_uid_overrun (hu : D.subjNameToVal "uid" RFormat.ruleFmtOrig.toNat = some .uid)
    (l : Nat) : ∀ (k : Nat) (n : LNode) (rest : List String), MAX_FIELDS < n.s.length + k →
    nvSplitLoop D .ruleFmtOrig l n (List.replicate k "uid=0" ++ rest) = .overrun []
  | 0, n, _, hk => absurd n.s_count_le (by omega)
  | k + 1, n, rest, hk => by
    rw [List.replicate_succ, List.cons_append]
    by_cases h : MAX_FIELDS ≤ n.s.length
    · simp [nvSplitLoop, show splitAtEq "uid=0" = some ("uid", "0") by decide, hu, subjectThen,
        assignSubject_full h]
    · rw [nvSplitLoop_uid_step D hu (Nat.not_le.1 h), nvSplitLoop_uid_overrun hu l k _ rest]
      simp only [LNode.pushSubject_s, List.length_append, List.length_singleton]
      omega

/-- `k` legacy fields `path=/x` that do not fit in `o`: the loop stores them while `o` has
room and then writes past it. -/
theorem nvSplitLoop_path_overrun (hp0 : D.subjNameToVal "path" RFormat.ruleFmtOrig.toNat = none)
    (hp : D.objNameToVal "path" = some .path) (l : Nat) :
    ∀ (k : Nat) (n : LNode) (rest : List String), MAX_FIELDS < n.o.length + k →
    nvSplitLoop D .ruleFmtOrig l n (List.replicate k "path=/x" ++ rest) = .overrun []
  | 0, n, _, hk => absurd n.o_count_le (by omega)
  | k + 1, n, rest, hk => by
    rw [List.replicate_succ, List.cons_append]
    by_cases h : MAX_FIELDS ≤ n.o.length
    · simp [nvSplitLoop, show splitAtEq "path=/x" = some ("path", "/x") by decide, hp0, hp,
        objectThen_full h]
    · rw [nvSplitLoop_path_step D hp0 hp (Nat.not_le.1 h), nvSplitLoop_path_overrun hp0 hp l k _ rest]
      simp only [LNode.pushObject_o, List.length_append, List.length_singleton]
      omega

/-- A legacy line `allow` followed by fields `uid=0` and `path=/x` is read by the loop of
`nv_split` from the fresh node with the decision `ALLOW`. -/
theorem nvSplit_allow_line {ws : List String} (hws : ∀ w ∈ ws, w = "uid=0" ∨ w = "path=/x")
    (l : Nat) :
    nvSplit daemonTables (unwords ("allow" :: ws)) l =
      nvSplitLoop daemonTables .ruleFmtOrig l { LNode.empty with d := ALLOW } ws := by
  have hw : ∀ w ∈ "allow" :: ws, w = "allow" ∨ w = "uid=0" ∨ w = "path=/x" := by
    rintro w (_ | ⟨_, h⟩)
    · exact .inl rfl
    · exact .inr (hws w h)
  have htok := strtok_unwords (fun w h => by rcases hw w h with rfl | rfl | rfl <;> decide)
    (fun w h => by rcases hw w h with rfl | rfl | rfl <;> decide)
  have hfmt : lineFormat (unwords ("allow" :: ws)) = .ruleFmtOrig := by
    rw [lineFormat, if_neg]
    rw [mem_unwords (by decide)]
    rintro ⟨w, h, hc⟩
    rcases hw w h with rfl | rfl | rfl <;> revert hc <;> decide
  unfold nvSplit
  simp only [htok, hfmt]
  rfl

/-- The legacy line of `k > MAX_FIELDS` fields `uid=0` and a path writes a field past `s`. -/
theorem nvSplit_uid_line_overrun (k : Nat) (hk : MAX_FIELDS < k) :
    nvSplit daemonTables (unwords ("allow" :: (List.replicate k "uid=0" ++ ["path=/x"]))) 1 =
      .overrun [] := by
  rw [nvSplit_allow_line (fun w h => by
    rcases List.mem_append.1 h with h | h
    · exact .inl (List.eq_of_mem_replicate h)
    · exact .inr (List.mem_singleton.1 h))]
  exact nvSplitLoop_uid_overrun daemonTables rfl 1 k _ _ (by simpa [LNode.empty] using hk)

/-- **Nothing bounds the fields.** For every `k > MAX_FIELDS`, the legacy line of `k`
subject fields `uid=0` and an object field, and the one of a subject field and `k` object
fields `path=/x`, are read until a field is written past its array: no routine compares
`s_count` or `o_count` with `MAX_FIELDS`. -/
theorem nvSplit_overflows_subject_array (k : Nat) (hk : MAX_FIELDS < k) :
    nvSplit daemonTables (unwords ("allow" :: (List.replicate k "uid=0" ++ ["path=/x"]))) 1 =
      .overrun [] ∧
    nvSplit daemonTables (unwords ("allow" :: "uid=0" :: List.replicate k "path=/x")) 1 =
      .overrun [] := by
  refine ⟨nvSplit_uid_line_overrun k hk, ?_⟩
  rw [nvSplit_allow_line (fun w h => by
    rcases List.mem_cons.1 h with h | h
    · exact .inl h
    · exact .inr (List.eq_of_mem_replicate h)),
    nvSplitLoop_uid_step daemonTables rfl (by decide), ← List.append_nil (List.replicate k _)]
  exact nvSplitLoop_path_overrun daemonTables rfl rfl 1 k _ _ (by simpa [LNode.empty] using hk)

/-- Nine fields `uid=0`, one more than `s` holds: the ninth is written past it. -/
theorem nvSplit_overflows_at_nine_fields :
    MAX_FIELDS < MAX_FIELDS + 1 ∧
      (nvSplit daemonTables
          (unwords ("allow" :: (List.replicate (MAX_FIELDS + 1) "uid=0" ++ ["path=/x"]))) 1 =
        .overrun [] ∧
      nvSplit daemonTables (unwords ("allow" :: "uid=0" :: List.replicate (MAX_FIELDS + 1) "path=/x"))
          1 = .overrun []) :=
  ⟨Nat.lt_succ_self _, nvSplit_overflows_subject_array _ (Nat.lt_succ_self _)⟩

/-- An unknown field name after `:` is logged as an error, and the rule is still accepted
without it: `nv_split` drops the code `parse_new_format` returns. -/
theorem nvSplit_accepts_unknown_field :
    nvSplit daemonTables "allow perm=any uid=0 : path=/x bogus=1" 1 =
      .ret 0 { d := ALLOW, a := .anyAcc, s := [⟨.uid, .val 0⟩], o := [⟨.path, "/x", 0⟩],
               format := .ruleFmtColon } [.fieldUnknown "bogus" 1] := by
  decide

end Facts

end Fapolicyd
