import Fapolicyd.Eval.Event

/-!
# Directory matching

A directory field of a rule, `exe_dir=` on the subject side and `dir=` on the
object side, matches a path by prefix. Two values are macros: `execdirs` for
the system's program directories and `systemdirs` for those and `/etc/`; the
table `dirs` lists them with their string lengths, and `check_dirs(i, path)`
scans it from entry `i`. A third, `untrusted`, is meant to match an untrusted
subject or object.

## The model

`subj_dir_test` and `obj_dir_test` are one test, `dirTest`, on the rule's
value, a length, the candidate path and the trust flag: the subject side takes
the length with `strlen`, the object side reads the `len` that
`assign_object` cached. The object side's guard `obj->o &&` always holds, since
`check_object` skips an attribute whose `o` is `NULL` before it calls the test.

## What is proved

With the length of the value, the test is a prefix test on every value but the
two macros (`dirTest_eq_one_iff`). The branch for `untrusted` compares a length
of `10` with the text `untrusted`, which has `9` characters, so it is never
taken: `untrusted` is matched as a prefix, whatever the trust flag
(`dirTest_untrusted`, `dirTest_ignores_trust`).
-/

namespace Fapolicyd

/-- The table `dirs`: each directory with its string length. -/
def dirs : List (Nat × String) :=
  [(5, "/etc/"), (5, "/usr/"), (5, "/bin/"), (6, "/sbin/"), (5, "/lib/"), (7, "/lib64/"),
    (13, "/usr/libexec/")]

/-- `check_dirs(i, path)`: some entry of `dirs` from `i` on is a prefix of the path. -/
def checkDirs (i : Nat) (path : String) : Nat :=
  if (dirs.drop i).any fun (value, name) => strncmp path name value = 0 then 1 else 0

/-- The test shared by `subj_dir_test` and `obj_dir_test`, on the rule's value `v` and the
length `len` the caller gives for it. -/
def dirTest (v : String) (len : Nat) (path : String) (trusted : Bool) : Nat :=
  if len = 8 ∧ strcmp v "execdirs" = 0 then checkDirs 1 path
  else if len = 10 ∧ strcmp v "systemdirs" = 0 then checkDirs 0 path
  else if len = 10 ∧ strcmp v "untrusted" = 0 then (if trusted then 0 else 1)
  else if strncmp path v len ≠ 0 then 0
  else 1

/-- `subj_dir_test(s, subj, trusted)`: the length is `strlen(s->str)`. -/
def subjDirTest (v path : String) (trusted : Bool) : Nat := dirTest v v.length path trusted

/-- `obj_dir_test(o, obj, trusted)`: the length is the `len` of the rule's field. -/
def objDirTest (o : ObjectAttr) (path : String) (trusted : Bool) : Nat := dirTest o.o o.len path trusted

/-- Each entry of `dirs` gives its own length. -/
theorem dirs_length : ∀ d ∈ dirs, d.1 = d.2.length := by decide

/-- The directories of `execdirs`. -/
def execDirNames : List String := ["/usr/", "/bin/", "/sbin/", "/lib/", "/lib64/", "/usr/libexec/"]

theorem checkDirs_eq_one_iff (i : Nat) (path : String) :
    checkDirs i path = 1 ↔ ∃ d ∈ dirs.drop i, d.2.data <+: path.data := by
  unfold checkDirs
  split_ifs with h <;> simp only [List.any_eq_true, decide_eq_true_eq] at h <;> simp only [true_iff,
    one_ne_zero, false_iff, not_exists, not_and]
  · obtain ⟨d, hd, h⟩ := h
    exact ⟨d, hd, by rwa [dirs_length d (List.mem_of_mem_drop hd), strncmp_length_eq_zero] at h⟩
  · intro d hd hp
    exact h ⟨d, hd, by rwa [dirs_length d (List.mem_of_mem_drop hd), strncmp_length_eq_zero]⟩

/-- The branch for `untrusted` needs a value of length `10`; `untrusted` has `9`. -/
theorem untrusted_branch_dead (v : String) : ¬(v.length = 10 ∧ strcmp v "untrusted" = 0) := by
  rw [strcmp_eq_zero]
  rintro ⟨hl, rfl⟩
  exact absurd hl (by decide)

/-- **What a directory field matches.** With the length of its value, a directory field
`execdirs` matches the paths under a program directory, `systemdirs` those and the paths
under `/etc/`, and any other value the paths it is a prefix of. -/
theorem dirTest_eq_one_iff (v path : String) (trusted : Bool) :
    dirTest v v.length path trusted = 1 ↔
      (v = "execdirs" ∧ ∃ d ∈ execDirNames, d.data <+: path.data) ∨
      (v = "systemdirs" ∧ ∃ d ∈ "/etc/" :: execDirNames, d.data <+: path.data) ∨
      (v ≠ "execdirs" ∧ v ≠ "systemdirs" ∧ v.data <+: path.data) := by
  unfold dirTest
  by_cases he : v = "execdirs"
  · subst he
    rw [if_pos ⟨rfl, strcmp_eq_zero.2 rfl⟩, checkDirs_eq_one_iff]
    simp [dirs, execDirNames]
  by_cases hs : v = "systemdirs"
  · subst hs
    rw [if_neg (by simp), if_pos ⟨rfl, strcmp_eq_zero.2 rfl⟩, checkDirs_eq_one_iff]
    simp [dirs, execDirNames]
  rw [if_neg fun h => he (strcmp_eq_zero.1 h.2), if_neg fun h => hs (strcmp_eq_zero.1 h.2),
    if_neg (untrusted_branch_dead v), ← strncmp_length_eq_zero]
  simp [he, hs]

/-- With the length of its value, the test never reads the trust flag. -/
theorem dirTest_ignores_trust (v path : String) (t t' : Bool) :
    dirTest v v.length path t = dirTest v v.length path t' := by
  simp only [dirTest, untrusted_branch_dead v, if_false]

/-- The value `untrusted` matches the paths it is a prefix of, whatever the trust flag. -/
theorem dirTest_untrusted (path : String) (trusted : Bool) :
    dirTest "untrusted" "untrusted".length path trusted =
      if "untrusted".data <+: path.data then 1 else 0 := by
  rw [dirTest, if_neg (by decide), if_neg (by decide), if_neg (untrusted_branch_dead _)]
  by_cases h : "untrusted".data <+: path.data
  · rw [if_neg (not_not.2 (strncmp_length_eq_zero.2 h)), if_pos h]
  · rw [if_pos (mt strncmp_length_eq_zero.1 h), if_neg h]

/-- The directory field `untrusted` does not match the path `/usr/bin/ls` of an untrusted
subject or object, on either side: both tests return `0`. -/
theorem dirTest_untrusted_no_match :
    subjDirTest "untrusted" "/usr/bin/ls" false = 0 ∧
      objDirTest ⟨.odir, "untrusted", "untrusted".length⟩ "/usr/bin/ls" false = 0 := by
  decide

end Fapolicyd
