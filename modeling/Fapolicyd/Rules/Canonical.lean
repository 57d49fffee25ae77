import Fapolicyd.Rules.ParseFacts
import Mathlib.Data.Nat.Digits

/-!
# A rule written back as text, and read again

The rule file's two dialects are a text form of the `lnode` record. Here a
record is written back: in the colon dialect as
`<decision> [perm=<access>] <subject fields> : <object fields>`, in the legacy
dialect as `<decision> <subject fields> <object fields>`, each field as
`name=value` or the bare `all`, numbers in decimal and patterns by name, and
`nv_split` is run on the text.

## What is proved

* `nvSplit_colonText` — with `perm=` written, `nv_split` reads every record
  back exactly, directory lengths included.
* `nvSplit_colonText_noPerm` — without `perm=`, an open-access record whose
  first subject field is not `all` is read back exactly.
* `nvSplit_legacyText` — in the legacy dialect, an open-access record with no
  `:` in its text and `all` at most as the first field of each list is read
  back exactly.
* `nvSplit_canonical_text_refused` — three records the text form can carry do
  not come back: a pattern field `normal` is refused and dropped, a colon
  text without `perm=` that starts with `all` is refused at its `:`, and a
  legacy `all` after a first subject field is read as the object wildcard.

## Honest scope

The records are `LNode`s, so they have at most `MAX_FIELDS` fields of each
kind. The round trip holds for the records `assign_subject` can rebuild. A
pattern field holds the code of `ld_so` or `static`: the code has no branch for
`normal`, although it defines `PATTERN_NORMAL_STR`. A colon-dialect text
without `perm=` whose first subject field is `all` is left out: that `all` is
read by the legacy branch of the loop, which never reaches `parse_new_format`.
-/

namespace Fapolicyd

/-! ### Numbers in decimal -/

private theorem digitChar_digit : ∀ d : Fin 10,
    (Nat.digitChar d.val).isDigit = true ∧ (Nat.digitChar d.val).toNat - '0'.toNat = d.val := by
  decide

theorem digitsValue_append_digit (cs : List Char) (c : Char) :
    digitsValue (cs ++ [c]) = 10 * digitsValue cs + (c.toNat - '0'.toNat) := by
  simp [digitsValue, List.foldl_append]

/-- In base ten, `toDigitsCore` puts the decimal digits of `n`, the most significant first,
before the digits `ds` it was given. -/
theorem toDigitsCore_ten : ∀ (fuel n : Nat) (ds : List Char), n < fuel →
    ∃ cs, Nat.toDigitsCore 10 fuel n ds = cs ++ ds ∧ cs ≠ [] ∧ (∀ c ∈ cs, c.isDigit = true) ∧
      digitsValue cs = n
  | 0, _, _, h => absurd h (Nat.not_lt_zero _)
  | fuel + 1, n, ds, h => by
    have hd : (Nat.digitChar (n % 10)).isDigit = true ∧
        (Nat.digitChar (n % 10)).toNat - '0'.toNat = n % 10 :=
      digitChar_digit ⟨n % 10, Nat.mod_lt _ (by decide)⟩
    rw [Nat.toDigitsCore]
    by_cases h0 : n / 10 = 0
    · rw [if_pos h0]
      refine ⟨[Nat.digitChar (n % 10)], rfl, List.cons_ne_nil _ _, by simpa using hd.1, ?_⟩
      simp only [digitsValue, List.foldl_cons, List.foldl_nil, hd.2]
      omega
    · rw [if_neg h0]
      obtain ⟨cs, hcs, -, hdig, hval⟩ := toDigitsCore_ten fuel (n / 10) _ (by omega)
      refine ⟨cs ++ [Nat.digitChar (n % 10)], by rw [hcs, List.append_assoc]; rfl, by simp,
        fun c hc => ?_, ?_⟩
      · rcases List.mem_append.1 hc with hc | hc
        · exact hdig c hc
        · exact List.mem_singleton.1 hc ▸ hd.1
      · rw [digitsValue_append_digit, hval, hd.2]
        omega

/-- `Nat.repr n` is the decimal of `n`: a nonempty run of digits that spells `n`. -/
theorem repr_digits (n : Nat) :
    (∀ c ∈ (Nat.repr n).data, c.isDigit = true) ∧ digitsValue (Nat.repr n).data = n ∧
      (Nat.repr n).data ≠ [] := by
  obtain ⟨cs, h, hne, hdig, hval⟩ := toDigitsCore_ten (n + 1) n [] (Nat.lt_succ_self n)
  have hr : (Nat.repr n).data = cs := by
    show Nat.toDigitsCore 10 (n + 1) n [] = cs
    rw [h, List.append_nil]
  exact hr ▸ ⟨hdig, hval, hne⟩

theorem strtol_repr {n : Nat} (h : n ≤ LONG_MAX) : strtol (Nat.repr n) = some n := by
  simp only [strtol, List.takeWhile_eq_self_iff.2 (repr_digits n).1, (repr_digits n).2.1, if_pos h]

theorem isdigit_repr (n : Nat) : isdigit (Nat.repr n) = true := by
  obtain ⟨c, cs, h⟩ := List.exists_cons_of_ne_nil (repr_digits n).2.2
  have hc : c ∈ (Nat.repr n).data := h ▸ List.mem_cons_self _ _
  simp [isdigit, h, (repr_digits n).1 c hc]

/-- A digit is none of the characters the parser cuts at. -/
theorem repr_no_sep {n : Nat} {c : Char} (hc : c = ' ' ∨ c = '=' ∨ c = ':') :
    c ∉ (Nat.repr n).data :=
  fun h => by rcases hc with rfl | rfl | rfl <;> simpa using (repr_digits n).1 _ h

/-! ### Writing a record -/

/-- How a rule file spells the decisions and the field types. -/
structure Spelling where
  dec : Decision → String
  subj : SubjType → String
  obj : ObjType → String

/-- The name of a pattern code. -/
def patternName (v : BitVec 32) : String :=
  if v = PATTERN_LD_SO_VAL then PATTERN_LD_SO_STR
  else if v = PATTERN_STATIC_VAL then PATTERN_STATIC_STR else PATTERN_NORMAL_STR

/-- The text of a subject value of type `t`: a pattern by name, a number in decimal. -/
def SubjValue.text (t : SubjType) : SubjValue → String
  | .val v => if t = .pattern then patternName v else Nat.repr v.toNat
  | .str s => s
  | .unset => ""

/-- The token `name=value`. -/
def field (name value : String) : String := ⟨name.data ++ '=' :: value.data⟩

/-- The token of a subject field. -/
def subjToken (sp : Spelling) (f : SubjectAttr) : String :=
  if f.type = .allSubj then "all" else field (sp.subj f.type) (f.value.text f.type)

/-- The token of an object field. -/
def objToken (sp : Spelling) (f : ObjectAttr) : String :=
  if f.type = .allObj then "all" else field (sp.obj f.type) f.o

/-- The value `perm=` takes for an access. -/
def accessName : Access → String
  | .openAcc => "open"
  | .execAcc => "execute"
  | .anyAcc => "any"

/-- The tokens of the colon-dialect text of `r`, with its `perm=` token when `perm` holds. -/
def colonWords (sp : Spelling) (perm : Bool) (r : LNode) : List String :=
  sp.dec r.d :: ((if perm then [field "perm" (accessName r.a)] else []) ++
    (r.s.map (subjToken sp) ++ ":" :: r.o.map (objToken sp)))

/-- The tokens of the legacy-dialect text of `r`. -/
def legacyWords (sp : Spelling) (r : LNode) : List String :=
  sp.dec r.d :: (r.s.map (subjToken sp) ++ r.o.map (objToken sp))

/-- A subject field the text can carry: the wildcard with no value, a pattern with the
code of `ld_so` or `static`, a string type with a word, a numeric type with a number. -/
def SubjectAttr.Writable (f : SubjectAttr) : Prop :=
  (f.type = .allSubj ∧ f.value = .unset) ∨
  (f.type = .pattern ∧ (f.value = .val PATTERN_LD_SO_VAL ∨ f.value = .val PATTERN_STATIC_VAL)) ∨
  (f.type.isStr = true ∧ ∃ s, f.value = .str s ∧ ' ' ∉ s.data) ∨
  (f.type ≠ .allSubj ∧ f.type ≠ .pattern ∧ f.type.isStr = false ∧ ∃ v, f.value = .val v)

/-- An object field the text can carry: the wildcard with an empty value, or a word
with the length `assign_object` caches for a directory. -/
def ObjectAttr.Writable (f : ObjectAttr) : Prop :=
  (f.type = .allObj ∧ f.o = "" ∧ f.len = 0) ∨
  (f.type ≠ .allObj ∧ ' ' ∉ f.o.data ∧ f.len = if f.type = .odir then f.o.length else 0)

/-- A name the parser cuts out whole: no blank and no `=`. -/
def IsName (w : String) : Prop := ' ' ∉ w.data ∧ '=' ∉ w.data

/-- The record `r` is written with `sp` and read back through `D`, subject names being
looked up with dialect argument `fmt`: its decision is a word the dictionary reads back,
its fields are writable and their names are read back to their types. -/
structure Writable (D : NameTables) (sp : Spelling) (fmt : Nat) (r : LNode) : Prop where
  dec : D.decNameToVal (sp.dec r.d) = some r.d
  dec_word : (sp.dec r.d).data ≠ [] ∧ ' ' ∉ (sp.dec r.d).data ∧ (sp.dec r.d).data.head? ≠ some '#'
  subj : ∀ f ∈ r.s, f.Writable ∧
    (f.type ≠ .allSubj → D.subjNameToVal (sp.subj f.type) fmt = some f.type ∧ IsName (sp.subj f.type))
  obj : ∀ f ∈ r.o, f.Writable ∧
    (f.type ≠ .allObj → D.objNameToVal (sp.obj f.type) = some f.type ∧ IsName (sp.obj f.type))
  s_ne : r.s ≠ []
  o_ne : r.o ≠ []

section Read

variable {D : NameTables} {sp : Spelling} {l fmt : Nat} {r : LNode}

/-! ### The tokens of the text -/

theorem field_ne_nil (name value : String) : (field name value).data ≠ [] := by simp [field]

theorem not_mem_field {c : Char} {name value : String} (hc : c ≠ '=') (hn : c ∉ name.data)
    (hv : c ∉ value.data) : c ∉ (field name value).data := by
  simp [field, hn, hv, hc]

theorem text_no_sep {c : Char} (hc : c = ' ' ∨ c = ':') {t : SubjType} {v : SubjValue}
    (hs : ∀ s, v = .str s → c ∉ s.data) : c ∉ (v.text t).data := by
  cases v with
  | val w =>
    rw [SubjValue.text]
    split_ifs
    · unfold patternName
      split_ifs <;> rcases hc with rfl | rfl <;> decide
    · exact repr_no_sep (hc.imp_right .inr)
  | str s => exact hs s rfl
  | unset => simp [SubjValue.text]

theorem subjToken_ne_nil (f : SubjectAttr) : (subjToken sp f).data ≠ [] := by
  unfold subjToken; split
  · decide
  · exact field_ne_nil _ _

theorem objToken_ne_nil (f : ObjectAttr) : (objToken sp f).data ≠ [] := by
  unfold objToken; split
  · decide
  · exact field_ne_nil _ _

theorem not_mem_subjToken {c : Char} (hc : c = ' ' ∨ c = ':') {f : SubjectAttr}
    (hn : f.type ≠ .allSubj → c ∉ (sp.subj f.type).data) (hs : ∀ s, f.value = .str s → c ∉ s.data) :
    c ∉ (subjToken sp f).data := by
  unfold subjToken; split
  · rcases hc with rfl | rfl <;> decide
  · exact not_mem_field (by rcases hc with rfl | rfl <;> decide) (hn ‹_›) (text_no_sep hc hs)

theorem not_mem_objToken {c : Char} (hc : c = ' ' ∨ c = ':') {f : ObjectAttr}
    (hn : f.type ≠ .allObj → c ∉ (sp.obj f.type).data) (ho : f.type ≠ .allObj → c ∉ f.o.data) :
    c ∉ (objToken sp f).data := by
  unfold objToken; split
  · rcases hc with rfl | rfl <;> decide
  · exact not_mem_field (by rcases hc with rfl | rfl <;> decide) (hn ‹_›) (ho ‹_›)

theorem SubjectAttr.Writable.no_blank {f : SubjectAttr} (hf : f.Writable) :
    ∀ s, f.value = .str s → ' ' ∉ s.data := by
  rintro s hs
  rcases hf with ⟨-, h⟩ | ⟨-, h | h⟩ | ⟨-, s', h, hs'⟩ | ⟨-, -, -, w, h⟩ <;> rw [hs] at h <;>
    first | (cases h; exact hs') | cases h

theorem ObjectAttr.Writable.no_blank {f : ObjectAttr} (hf : f.Writable) (h : f.type ≠ .allObj) :
    ' ' ∉ f.o.data := by
  rcases hf with ⟨h', -⟩ | ⟨-, h', -⟩
  · exact absurd h' h
  · exact h'

theorem Writable.words (hw : Writable D sp fmt r) :
    (∀ f ∈ r.s, (subjToken sp f).data ≠ [] ∧ ' ' ∉ (subjToken sp f).data) ∧
    (∀ f ∈ r.o, (objToken sp f).data ≠ [] ∧ ' ' ∉ (objToken sp f).data) := by
  refine ⟨fun f hf => ⟨subjToken_ne_nil f, ?_⟩, fun f hf => ⟨objToken_ne_nil f, ?_⟩⟩
  · exact not_mem_subjToken (Or.inl rfl) (fun h => ((hw.subj f hf).2 h).2.1) (hw.subj f hf).1.no_blank
  · exact not_mem_objToken (Or.inl rfl) (fun h => ((hw.obj f hf).2 h).2.1) (hw.obj f hf).1.no_blank

/-! ### Reading one field back -/

/-- The node with the subject fields `ss` written after its own, when they fit in `s`. -/
@[simps] def LNode.appendSubjects (n : LNode) (ss : List SubjectAttr)
    (h : n.s.length + ss.length ≤ MAX_FIELDS) : LNode :=
  { n with s := n.s ++ ss, s_count_le := by rw [List.length_append]; exact h }

/-- The node with the object fields `os` written after its own, when they fit in `o`. -/
@[simps] def LNode.appendObjects (n : LNode) (os : List ObjectAttr)
    (h : n.o.length + os.length ≤ MAX_FIELDS) : LNode :=
  { n with o := n.o ++ os, o_count_le := by rw [List.length_append]; exact h }

theorem assignSubject_allSubj {n : LNode} (h : n.s.length < MAX_FIELDS) :
    assignSubject D n .allSubj "" l = .ret 0 (n.pushSubject ⟨.allSubj, .unset⟩ h) [] := by
  rw [assignSubject, dif_neg (Nat.not_le.2 h)]
  simp [SubjType.isStr, SubjType.toNat, isdigit]

theorem subjectThen_of_ret {n n' : LNode} {t : SubjType} {v : String} {k : LNode → Outcome}
    (h : assignSubject D n t v l = .ret 0 n' []) : subjectThen D n t v l k = k n' := by
  simp [subjectThen, h]

theorem assignSubject_writable {f : SubjectAttr} (hf : f.Writable) (hall : f.type ≠ .allSubj)
    {n : LNode} (h : n.s.length < MAX_FIELDS) :
    assignSubject D n f.type (f.value.text f.type) l = .ret 0 (n.pushSubject f h) [] := by
  obtain ⟨t, v⟩ := f
  rw [assignSubject, dif_neg (Nat.not_le.2 h)]
  rcases hf with ⟨rfl, -⟩ | ⟨rfl, rfl | rfl⟩ | ⟨ht, s, rfl, -⟩ | ⟨h1, h2, h3, w, rfl⟩
  · exact absurd rfl hall
  all_goals simp only [SubjValue.text, patternName]
  · simp [SubjType.isStr, SubjType.toNat]
  · simp [SubjType.isStr, SubjType.toNat, show PATTERN_STATIC_VAL ≠ PATTERN_LD_SO_VAL by decide,
      show PATTERN_STATIC_STR ≠ PATTERN_LD_SO_STR by decide]
  · simp [ht]
  · have hlt : w.toNat ≤ LONG_MAX := by
      have := w.isLt; simp only [LONG_MAX]; omega
    simp [h2, h3, isdigit_repr, strtol_repr hlt]

theorem splitAtEq_field {name value : String} (h : '=' ∉ name.data) :
    splitAtEq (field name value) = some (name, value) := splitAtEq_append h

theorem colonFirst_perm {n : LNode} (hn : n.a = .openAcc) (a : Access) :
    colonFirst D n "perm" (accessName a) l = .ret 0 { n with a } [] := by
  cases a <;> simp [colonFirst, accessName, strcmp]
  cases n; simp_all

theorem colonFirst_subject {f : SubjectAttr} (hf : f.Writable) (hall : f.type ≠ .allSubj)
    (hread : D.subjNameToVal (sp.subj f.type) 2 = some f.type) (hperm : sp.subj f.type ≠ "perm")
    {n : LNode} (h : n.s.length < MAX_FIELDS) :
    colonFirst D n (sp.subj f.type) (f.value.text f.type) l = .ret 0 (n.pushSubject f h) [] := by
  simp [colonFirst, hperm, hread, subjectThen_of_ret (assignSubject_writable hf hall h)]

/-! ### The colon dialect -/

/-- One subject field before the `:`. -/
theorem parseNewFormat_subject {f : SubjectAttr} (hf : f.Writable)
    (hname : f.type ≠ .allSubj → D.subjNameToVal (sp.subj f.type) 2 = some f.type ∧ IsName (sp.subj f.type))
    {n : LNode} (h : n.s.length < MAX_FIELDS) (rest : List String) :
    parseNewFormat D l 0 n (subjToken sp f :: rest) = parseNewFormat D l 0 (n.pushSubject f h) rest := by
  by_cases hall : f.type = .allSubj
  · obtain ⟨t, v⟩ := f
    have hv : v = .unset := by
      rcases hf with ⟨-, h⟩ | ⟨h, -⟩ | ⟨h, -⟩ | ⟨h, -⟩ <;> simp_all [SubjType.isStr, SubjType.toNat]
    simp only at hall
    subst hall hv
    rw [subjToken, if_pos rfl, parseNewFormat]
    simp [show splitAtEq "all" = none by decide, subjectThen_of_ret (assignSubject_allSubj h)]
  · obtain ⟨hread, -, hnoeq⟩ := hname hall
    rw [subjToken, if_neg hall, parseNewFormat, splitAtEq_field hnoeq]
    simp [hread, subjectThen_of_ret (assignSubject_writable hf hall h)]

theorem parseNewFormat_subjects {ss : List SubjectAttr} (hs : ∀ f ∈ ss, f.Writable ∧ (f.type ≠ .allSubj →
      D.subjNameToVal (sp.subj f.type) 2 = some f.type ∧ IsName (sp.subj f.type)))
    (n : LNode) (h : n.s.length + ss.length ≤ MAX_FIELDS) (rest : List String) :
    parseNewFormat D l 0 n (ss.map (subjToken sp) ++ rest) =
      parseNewFormat D l 0 (n.appendSubjects ss h) rest := by
  induction ss generalizing n with
  | nil =>
    simp only [List.map_nil, List.nil_append]
    congr 1; apply LNode.ext <;> simp
  | cons f ss ih =>
    have hf := hs f (List.mem_cons_self _ _)
    have hroom : n.s.length < MAX_FIELDS := by simp at h; omega
    rw [List.map_cons, List.cons_append, parseNewFormat_subject hf.1 hf.2 hroom,
      ih (fun g hg => hs g (List.mem_cons_of_mem _ hg)) _ (by simp at h ⊢; omega)]
    congr 1; apply LNode.ext <;> simp

/-- One object field after the `:`. -/
theorem parseNewFormat_object {f : ObjectAttr} (hf : f.Writable)
    (hname : f.type ≠ .allObj → D.objNameToVal (sp.obj f.type) = some f.type ∧ IsName (sp.obj f.type))
    {n : LNode} (h : n.o.length < MAX_FIELDS) (rest : List String) :
    parseNewFormat D l 1 n (objToken sp f :: rest) = parseNewFormat D l 1 (n.pushObject f h) rest := by
  obtain ⟨t, o, len⟩ := f
  rcases hf with ⟨ht, ho, hl⟩ | ⟨ht, -, hl⟩
  · simp only at ht ho hl
    subst ht ho hl
    rw [objToken, if_pos rfl, parseNewFormat]
    simp [show splitAtEq "all" = none by decide, objectThen_room h]
  · obtain ⟨hread, -, hnoeq⟩ := hname ht
    simp only at ht hl hread hnoeq
    rw [objToken, if_neg ht, parseNewFormat, splitAtEq_field hnoeq]
    simp [hread, objectThen_room h, hl]

theorem parseNewFormat_objects {os : List ObjectAttr} (hs : ∀ f ∈ os, f.Writable ∧ (f.type ≠ .allObj →
      D.objNameToVal (sp.obj f.type) = some f.type ∧ IsName (sp.obj f.type)))
    (n : LNode) (h : n.o.length + os.length ≤ MAX_FIELDS) :
    parseNewFormat D l 1 n (os.map (objToken sp)) = .ret 0 (n.appendObjects os h) [] := by
  induction os generalizing n with
  | nil =>
    rw [List.map_nil, parseNewFormat]
    congr 1; apply LNode.ext <;> simp
  | cons f os ih =>
    have hf := hs f (List.mem_cons_self _ _)
    have hroom : n.o.length < MAX_FIELDS := by simp at h; omega
    rw [List.map_cons, parseNewFormat_object hf.1 hf.2 hroom,
      ih (fun g hg => hs g (List.mem_cons_of_mem _ hg)) _ (by simp at h ⊢; omega)]
    congr 1; apply LNode.ext <;> simp

theorem strtok_colonWords (hw : Writable D sp fmt r) (perm : Bool) :
    strtok (unwords (colonWords sp perm r)) = colonWords sp perm r := by
  have ⟨hs, ho⟩ := hw.words
  have key : ∀ w ∈ colonWords sp perm r, w.data ≠ [] ∧ ' ' ∉ w.data := by
    intro w hw'
    simp only [colonWords, List.mem_cons, List.mem_append, List.mem_map] at hw'
    rcases hw' with rfl | hp | ⟨f, hf, rfl⟩ | rfl | ⟨f, hf, rfl⟩
    · exact ⟨hw.dec_word.1, hw.dec_word.2.1⟩
    · split at hp
      · simp only [List.mem_singleton] at hp
        subst hp
        exact ⟨field_ne_nil _ _, not_mem_field (by decide) (by decide)
          (by cases r.a <;> decide)⟩
      · simp at hp
    · exact hs f hf
    · decide
    · exact ho f hf
  exact strtok_unwords (fun w h => (key w h).1) (fun w h => (key w h).2)

theorem nvSplit_colonText (hw : Writable D sp 2 r) (l : Nat) :
    nvSplit D (unwords (colonWords sp true r)) l = .ret 0 { r with format := .ruleFmtColon } [] := by
  have hfmt : lineFormat (unwords (colonWords sp true r)) = .ruleFmtColon := by
    rw [lineFormat, if_pos]
    rw [mem_unwords (by decide)]
    exact ⟨":", by simp [colonWords], by decide⟩
  unfold nvSplit
  dsimp only
  rw [strtok_colonWords hw, hfmt]
  simp only [colonWords, if_true, List.singleton_append, hw.dec_word.2.2, if_false, hw.dec]
  rw [nvSplitLoop, splitAtEq_field (by decide)]
  simp only [if_true]
  rw [colonFirst_perm rfl]
  simp only [ne_eq, not_true_eq_false, if_false, Outcome.ret_bind]
  rw [parseNewFormat_subjects hw.subj _ (by simpa [LNode.empty] using r.s_count_le),
    parseNewFormat_colon, parseNewFormat_objects hw.obj _ (by simpa [LNode.empty] using r.o_count_le)]
  simp only [Outcome.ret_bind, Outcome.after_nil, finishUp, LNode.appendObjects_s,
    LNode.appendObjects_o, LNode.appendSubjects_s, LNode.appendSubjects_o, LNode.empty,
    List.nil_append, List.length_eq_zero, hw.s_ne, hw.o_ne, if_false]
  rfl

theorem nvSplit_colonText_noPerm (hw : Writable D sp 2 r) (ha : r.a = .openAcc)
    (hfirst : ∀ f ∈ r.s.head?, f.type ≠ .allSubj ∧ sp.subj f.type ≠ "perm") (l : Nat) :
    nvSplit D (unwords (colonWords sp false r)) l = .ret 0 { r with format := .ruleFmtColon } [] := by
  obtain ⟨f, ss, hr⟩ := List.exists_cons_of_ne_nil hw.s_ne
  obtain ⟨hall, hperm⟩ := hfirst f (by rw [hr]; rfl)
  have hf := hw.subj f (by rw [hr]; exact List.mem_cons_self _ _)
  obtain ⟨hread, -, hnoeq⟩ := hf.2 hall
  have hfmt : lineFormat (unwords (colonWords sp false r)) = .ruleFmtColon := by
    rw [lineFormat, if_pos]
    rw [mem_unwords (by decide)]
    exact ⟨":", by simp [colonWords], by decide⟩
  have hlen : ss.length + 1 ≤ MAX_FIELDS := by simpa [hr] using r.s_count_le
  unfold nvSplit
  dsimp only
  rw [strtok_colonWords hw, hfmt]
  simp only [colonWords, Bool.false_eq_true, if_false, List.nil_append, hr, List.map_cons,
    List.cons_append, hw.dec_word.2.2, hw.dec]
  rw [nvSplitLoop, subjToken, if_neg hall, splitAtEq_field hnoeq]
  simp only [if_true]
  rw [colonFirst_subject hf.1 hall hread hperm (by simp [LNode.empty]; omega)]
  simp only [ne_eq, not_true_eq_false, if_false, Outcome.ret_bind]
  rw [parseNewFormat_subjects (fun g hg => hw.subj g (by rw [hr]; exact List.mem_cons_of_mem _ hg)) _
      (by simp [LNode.empty]; omega),
    parseNewFormat_colon, parseNewFormat_objects hw.obj _ (by simpa [LNode.empty] using r.o_count_le)]
  simp only [Outcome.ret_bind, Outcome.after_nil, finishUp, LNode.appendObjects_s,
    LNode.appendObjects_o, LNode.appendSubjects_s, LNode.pushSubject_s, LNode.appendSubjects_o,
    LNode.pushSubject_o, LNode.empty, List.nil_append, List.length_append, List.length_singleton,
    Nat.add_eq_zero, Nat.one_ne_zero, and_false, List.length_eq_zero, hw.o_ne, if_false,
    List.singleton_append, List.cons_ne_nil]
  congr 1; apply LNode.ext <;> simp [hr, ha]

/-! ### The legacy dialect -/

theorem strtok_legacyWords (hw : Writable D sp fmt r) :
    strtok (unwords (legacyWords sp r)) = legacyWords sp r := by
  have ⟨hs, ho⟩ := hw.words
  have key : ∀ w ∈ legacyWords sp r, w.data ≠ [] ∧ ' ' ∉ w.data := by
    intro w hw'
    simp only [legacyWords, List.mem_cons, List.mem_append, List.mem_map] at hw'
    rcases hw' with rfl | ⟨f, hf, rfl⟩ | ⟨f, hf, rfl⟩
    · exact ⟨hw.dec_word.1, hw.dec_word.2.1⟩
    · exact hs f hf
    · exact ho f hf
  exact strtok_unwords (fun w h => (key w h).1) (fun w h => (key w h).2)

theorem nvSplitLoop_legacy_subject {f : SubjectAttr} (hf : f.Writable)
    (hname : f.type ≠ .allSubj → D.subjNameToVal (sp.subj f.type) 0 = some f.type ∧ IsName (sp.subj f.type))
    {n : LNode} (h : n.s.length < MAX_FIELDS) (hall : f.type = .allSubj → n.s = []) (rest : List String) :
    nvSplitLoop D .ruleFmtOrig l n (subjToken sp f :: rest) =
      nvSplitLoop D .ruleFmtOrig l (n.pushSubject f h) rest := by
  by_cases ha : f.type = .allSubj
  · obtain ⟨t, v⟩ := f
    have hv : v = .unset := by
      rcases hf with ⟨-, h⟩ | ⟨h, -⟩ | ⟨h, -⟩ | ⟨h, -⟩ <;> simp_all [SubjType.isStr, SubjType.toNat]
    simp only at ha hall
    subst ha hv
    rw [subjToken, if_pos rfl, nvSplitLoop]
    simp [show splitAtEq "all" = none by decide, hall rfl, subjectThen_of_ret (assignSubject_allSubj h)]
  · obtain ⟨hread, -, hnoeq⟩ := hname ha
    rw [subjToken, if_neg ha, nvSplitLoop, splitAtEq_field hnoeq]
    simp [RFormat.toNat, hread, subjectThen_of_ret (assignSubject_writable hf ha h)]

theorem nvSplitLoop_legacy_subjects {ss : List SubjectAttr} (hs : ∀ f ∈ ss, f.Writable ∧
      f.type ≠ .allSubj ∧ D.subjNameToVal (sp.subj f.type) 0 = some f.type ∧ IsName (sp.subj f.type))
    (n : LNode) (h : n.s.length + ss.length ≤ MAX_FIELDS) (rest : List String) :
    nvSplitLoop D .ruleFmtOrig l n (ss.map (subjToken sp) ++ rest) =
      nvSplitLoop D .ruleFmtOrig l (n.appendSubjects ss h) rest := by
  induction ss generalizing n with
  | nil =>
    simp only [List.map_nil, List.nil_append]
    congr 1; apply LNode.ext <;> simp
  | cons f ss ih =>
    have hf := hs f (List.mem_cons_self _ _)
    have hroom : n.s.length < MAX_FIELDS := by simp at h; omega
    rw [List.map_cons, List.cons_append,
      nvSplitLoop_legacy_subject hf.1 (fun _ => hf.2.2) hroom (fun h => absurd h hf.2.1),
      ih (fun g hg => hs g (List.mem_cons_of_mem _ hg)) _ (by simp at h ⊢; omega)]
    congr 1; apply LNode.ext <;> simp

theorem nvSplitLoop_legacy_object {f : ObjectAttr} (hf : f.Writable)
    (hname : f.type ≠ .allObj → D.subjNameToVal (sp.obj f.type) 0 = none ∧
      D.objNameToVal (sp.obj f.type) = some f.type ∧ IsName (sp.obj f.type))
    {n : LNode} (h : n.o.length < MAX_FIELDS) (hall : f.type = .allObj → n.s ≠ [] ∧ n.o = [])
    (rest : List String) :
    nvSplitLoop D .ruleFmtOrig l n (objToken sp f :: rest) =
      nvSplitLoop D .ruleFmtOrig l (n.pushObject f h) rest := by
  obtain ⟨t, o, len⟩ := f
  rcases hf with ⟨ht, ho, hl⟩ | ⟨ht, -, hl⟩
  · simp only at ht ho hl hall
    subst ht ho hl
    obtain ⟨hs, ho⟩ := hall rfl
    rw [objToken, if_pos rfl, nvSplitLoop]
    simp [show splitAtEq "all" = none by decide, hs, ho, objectThen_room h]
  · obtain ⟨hsubj, hread, -, hnoeq⟩ := hname ht
    simp only at ht hl hread hnoeq hsubj
    rw [objToken, if_neg ht, nvSplitLoop, splitAtEq_field hnoeq]
    simp [RFormat.toNat, hsubj, hread, objectThen_room h, hl]

theorem nvSplitLoop_legacy_objects {os : List ObjectAttr} (hs : ∀ f ∈ os, f.Writable ∧
      f.type ≠ .allObj ∧ D.subjNameToVal (sp.obj f.type) 0 = none ∧
      D.objNameToVal (sp.obj f.type) = some f.type ∧ IsName (sp.obj f.type))
    (n : LNode) (h : n.o.length + os.length ≤ MAX_FIELDS) :
    nvSplitLoop D .ruleFmtOrig l n (os.map (objToken sp)) = finishUp (n.appendObjects os h) l := by
  induction os generalizing n with
  | nil =>
    rw [List.map_nil, nvSplitLoop]
    congr 1; apply LNode.ext <;> simp
  | cons f os ih =>
    have hf := hs f (List.mem_cons_self _ _)
    have hroom : n.o.length < MAX_FIELDS := by simp at h; omega
    rw [List.map_cons,
      nvSplitLoop_legacy_object hf.1 (fun _ => hf.2.2) hroom (fun h => absurd h hf.2.1),
      ih (fun g hg => hs g (List.mem_cons_of_mem _ hg)) _ (by simp at h ⊢; omega)]
    congr 1; apply LNode.ext <;> simp

theorem nvSplit_legacyText (hw : Writable D sp 0 r) (ha : r.a = .openAcc)
    (hobj : ∀ f ∈ r.o, f.type ≠ .allObj → D.subjNameToVal (sp.obj f.type) 0 = none)
    (hcolon : ':' ∉ (unwords (legacyWords sp r)).data)
    (hs1 : ∀ f ∈ r.s.tail, f.type ≠ .allSubj) (ho1 : ∀ f ∈ r.o.tail, f.type ≠ .allObj) (l : Nat) :
    nvSplit D (unwords (legacyWords sp r)) l = .ret 0 { r with format := .ruleFmtOrig } [] := by
  have htok := strtok_legacyWords hw
  have hfmt : lineFormat (unwords (legacyWords sp r)) = .ruleFmtOrig := by
    rw [lineFormat, if_neg hcolon]
  obtain ⟨f, ss, hrs⟩ := List.exists_cons_of_ne_nil hw.s_ne
  obtain ⟨g, os, hro⟩ := List.exists_cons_of_ne_nil hw.o_ne
  rw [hrs, List.tail_cons] at hs1
  rw [hro] at hobj ho1
  rw [List.tail_cons] at ho1
  have hf := hw.subj f (by rw [hrs]; exact List.mem_cons_self _ _)
  have hg := hw.obj g (by rw [hro]; exact List.mem_cons_self _ _)
  have hslen : ss.length + 1 ≤ MAX_FIELDS := by simpa [hrs] using r.s_count_le
  have holen : os.length + 1 ≤ MAX_FIELDS := by simpa [hro] using r.o_count_le
  unfold nvSplit
  dsimp only
  rw [htok, hfmt]
  simp only [legacyWords, hrs, hro, List.map_cons, List.cons_append, hw.dec_word.2.2, if_false, hw.dec]
  rw [nvSplitLoop_legacy_subject hf.1 hf.2 (by simp [LNode.empty]; omega) (fun _ => rfl),
    nvSplitLoop_legacy_subjects (fun f' hf' => have h := hw.subj f' (by rw [hrs]; exact List.mem_cons_of_mem _ hf');
      ⟨h.1, hs1 f' hf', h.2 (hs1 f' hf')⟩) _ (by simp [LNode.empty]; omega),
    nvSplitLoop_legacy_object hg.1 (fun h => ⟨hobj g (List.mem_cons_self _ _) h, hg.2 h⟩)
      (by simp [LNode.empty]; omega) (fun _ => ⟨by simp, rfl⟩),
    nvSplitLoop_legacy_objects (fun g' hg' => have h := hw.obj g' (by rw [hro]; exact List.mem_cons_of_mem _ hg');
      ⟨h.1, ho1 g' hg', hobj g' (List.mem_cons_of_mem _ hg') (ho1 g' hg'), h.2 (ho1 g' hg')⟩)
      _ (by simp [LNode.empty]; omega)]
  simp only [finishUp, LNode.appendObjects_s, LNode.appendObjects_o, LNode.appendSubjects_s,
    LNode.appendSubjects_o, LNode.pushSubject_s, LNode.pushSubject_o, LNode.pushObject_s,
    LNode.pushObject_o, LNode.empty, List.nil_append, List.length_append, List.length_singleton,
    List.length_cons, Nat.add_eq_zero, Nat.one_ne_zero, and_false, false_and, if_false]
  congr 1; apply LNode.ext <;> simp [hrs, hro, ha]

end Read

/-! ### The round trip -/

/-- **Reading a written rule back.** A record the dictionaries can spell is rebuilt
exactly by `nv_split` from its colon-dialect text with `perm=`; from that text without
`perm=` when its access is open and its first subject field is neither `all` nor named
`perm`; and from its legacy text when its access is open, its object names are not
subject names in the legacy dictionary, its text holds no `:`, and `all` stands at most
first in each field list. -/
theorem nvSplit_reads_back (D : NameTables) (sp : Spelling) (r : LNode) (l : Nat) :
    (Writable D sp 2 r →
      nvSplit D (unwords (colonWords sp true r)) l = .ret 0 { r with format := .ruleFmtColon } []) ∧
    (Writable D sp 2 r → r.a = .openAcc →
      (∀ f ∈ r.s.head?, f.type ≠ .allSubj ∧ sp.subj f.type ≠ "perm") →
      nvSplit D (unwords (colonWords sp false r)) l = .ret 0 { r with format := .ruleFmtColon } []) ∧
    (Writable D sp 0 r → r.a = .openAcc →
      (∀ f ∈ r.o, f.type ≠ .allObj → D.subjNameToVal (sp.obj f.type) 0 = none) →
      ':' ∉ (unwords (legacyWords sp r)).data →
      (∀ f ∈ r.s.tail, f.type ≠ .allSubj) → (∀ f ∈ r.o.tail, f.type ≠ .allObj) →
      nvSplit D (unwords (legacyWords sp r)) l = .ret 0 { r with format := .ruleFmtOrig } []) :=
  ⟨fun hw => nvSplit_colonText hw l, fun hw ha hf => nvSplit_colonText_noPerm hw ha hf l,
    fun hw ha ho hc hs ho1 => nvSplit_legacyText hw ha ho hc hs ho1 l⟩

/-- The names `daemonTables` reads. -/
def daemonSpelling : Spelling where
  dec d :=
    if d = ALLOW then "allow" else if d = DENY then "deny"
    else if d = ALLOW ||| AUDIT then "allow_audit" else if d = DENY ||| AUDIT then "deny_audit"
    else if d = ALLOW ||| SYSLOG then "allow_syslog" else "deny_syslog"
  subj
    | .allSubj => "all" | .auid => "auid" | .uid => "uid" | .sessionid => "sessionid"
    | .pid => "pid" | .pattern => "pattern" | .subjTrust => "trust" | .gid => "gid"
    | .comm => "comm" | .exe => "exe" | .exeDir => "exe_dir" | .exeType => "exe_type"
    | .exeDevice => "exe_device"
  obj
    | .allObj => "all" | .path => "path" | .odir => "dir" | .device => "device"
    | .ftype => "ftype" | .objTrust => "trust" | .sha256hash => "sha256hash"

theorem nvSplit_reads_back_daemon_rule :
    let r : LNode := { d := ALLOW, a := .openAcc, s := [⟨.uid, .val 0⟩, ⟨.exe, .str "/bin/ls"⟩],
                       o := [⟨.odir, "/usr/", 5⟩, ⟨.ftype, "any", 0⟩], format := .ruleFmtColon }
    Writable daemonTables daemonSpelling 2 r ∧ Writable daemonTables daemonSpelling 0 r ∧
    nvSplit daemonTables (unwords (colonWords daemonSpelling true r)) 1 = .ret 0 r [] ∧
    nvSplit daemonTables (unwords (colonWords daemonSpelling false r)) 1 = .ret 0 r [] ∧
    nvSplit daemonTables (unwords (legacyWords daemonSpelling r)) 1 =
      .ret 0 { r with format := .ruleFmtOrig } [] := by
  intro r
  have hname : ∀ w : String, ' ' ∉ w.data → '=' ∉ w.data → IsName w := fun _ h1 h2 => ⟨h1, h2⟩
  have hw : ∀ fmt, Writable daemonTables daemonSpelling fmt r := fun fmt =>
    ⟨by decide, by decide,
      by
        intro f hf
        simp only [r, List.mem_cons, List.mem_singleton, List.not_mem_nil, or_false] at hf
        rcases hf with rfl | rfl
        · exact ⟨.inr (.inr (.inr ⟨by decide, by decide, rfl, 0, rfl⟩)),
            fun _ => ⟨rfl, hname _ (by decide) (by decide)⟩⟩
        · exact ⟨.inr (.inr (.inl ⟨rfl, "/bin/ls", rfl, by decide⟩)),
            fun _ => ⟨rfl, hname _ (by decide) (by decide)⟩⟩,
      by
        intro f hf
        simp only [r, List.mem_cons, List.mem_singleton, List.not_mem_nil, or_false] at hf
        rcases hf with rfl | rfl <;>
          exact ⟨.inr ⟨by decide, by decide, rfl⟩, fun _ => ⟨rfl, hname _ (by decide) (by decide)⟩⟩,
      List.cons_ne_nil _ _, List.cons_ne_nil _ _⟩
  have h := nvSplit_reads_back daemonTables daemonSpelling r 1
  exact ⟨hw 2, hw 0, h.1 (hw 2), h.2.1 (hw 2) rfl (fun f hf => by cases hf; decide),
    h.2.2 (hw 0) rfl (by decide) (by decide) (by decide) (by decide)⟩

/-- **Three texts that do not come back.** The colon text with `perm=` of a rule whose pattern
field is `normal` loses the field and is refused for want of a subject; the colon text
without `perm=` of an open-access rule whose subject is `all` is refused at its `:`, which the
legacy branch of the loop reads as a field without `=`; and in the legacy text of a rule with
subject fields `uid=0` and `all`, the `all` is read as the object wildcard. -/
theorem nvSplit_canonical_text_refused :
    let r₁ : LNode := { d := ALLOW, a := .anyAcc, s := [⟨.pattern, .val PATTERN_NORMAL_VAL⟩],
                        o := [⟨.allObj, "", 0⟩], format := .ruleFmtColon }
    let r₂ : LNode := { d := ALLOW, a := .openAcc, s := [⟨.allSubj, .unset⟩], o := [⟨.allObj, "", 0⟩],
                        format := .ruleFmtColon }
    let r₃ : LNode := { d := ALLOW, a := .openAcc, s := [⟨.uid, .val 0⟩, ⟨.allSubj, .unset⟩],
                        o := [⟨.path, "/x", 0⟩], format := .ruleFmtOrig }
    unwords (colonWords daemonSpelling true r₁) = "allow perm=any pattern=normal : all" ∧
    nvSplit daemonTables "allow perm=any pattern=normal : all" 1 =
      .ret 6 { d := ALLOW, a := .anyAcc, s := [], o := [⟨.allObj, "", 0⟩], format := .ruleFmtColon }
        [.unknownPattern "normal" 1, .subjectMissing 1] ∧
    unwords (colonWords daemonSpelling false r₂) = "allow all : all" ∧
    nvSplit daemonTables "allow all : all" 1 =
      .ret 5 { d := ALLOW, a := .openAcc, s := [⟨.allSubj, .unset⟩], o := [], format := .ruleFmtColon }
        [.equalsMissing ":" 1] ∧
    unwords (legacyWords daemonSpelling r₃) = "allow uid=0 all path=/x" ∧
    nvSplit daemonTables "allow uid=0 all path=/x" 1 =
      .ret 0 { d := ALLOW, a := .openAcc, s := [⟨.uid, .val 0⟩], o := [⟨.allObj, "", 0⟩, ⟨.path, "/x", 0⟩],
               format := .ruleFmtOrig } [] := by
  decide

end Fapolicyd
