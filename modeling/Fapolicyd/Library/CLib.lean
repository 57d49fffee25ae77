import Mathlib.Data.List.Basic

/-!
# The C library calls of `rules.c`

`nv_split` reads a rule line with `strtok(buf, " ")`, cuts each token at its
first `=` (`strchr(ptr, '=')`, then `*ptr2 = 0; ptr2++`), compares words with
`strcmp` and directories with `strncmp`, and reads numbers with
`isdigit(*ptr2)` and `strtol(ptr2, NULL, 10)`. This module gives each call the
meaning it has on the strings the code hands it.

## The model

A C string is the `String` of its bytes, one `Char` for each byte, so that
`strlen(s)` is `s.length` and the `n` of `strncmp` counts characters. The
strings `rules.c` handles come from a text line or from the kernel's path
names, so they hold no NUL, and on such strings the definitions below are
exact. `strcmp` and `strncmp` return `0` or `1`: the code
only ever asks whether the result is `0`. `strtol` runs on a `long` of 64 bits,
the LP64 targets of the daemon; `none` is the `ERANGE` it sets in `errno` past
`LONG_MAX`.
-/

namespace Fapolicyd

/-- The tokens `strtok(buf, " ")` and the calls `strtok(NULL, " ")` after it hand
out, in order: the maximal runs of characters other than the blank. -/
def strtok (buf : String) : List String :=
  ((buf.data.splitOn ' ').filter fun t => !t.isEmpty).map String.mk

/-- `strchr(ptr, '=')` and the cut the code makes there: the field name before the
first `=` and the value after it, or `none` when the token has no `=`. -/
def splitAtEq (tok : String) : Option (String × String) :=
  match tok.data.span (· != '=') with
  | (_, []) => none
  | (name, _ :: value) => some (⟨name⟩, ⟨value⟩)

/-- `strcmp(a, b)`, up to its sign. -/
def strcmp (a b : String) : Nat := if a = b then 0 else 1

/-- `strncmp(a, b, n)`, up to its sign: the first `n` characters agree, a string
that ends before `n` agreeing only with one that ends at the same place. -/
def strncmp (a b : String) (n : Nat) : Nat := if a.data.take n = b.data.take n then 0 else 1

/-- `isdigit(*ptr2)`: the first character is a decimal digit (the empty string
starts with its NUL). -/
def isdigit (s : String) : Bool := s.data.head?.any Char.isDigit

/-- The value of a run of decimal digits, read left to right. -/
def digitsValue (cs : List Char) : Nat := cs.foldl (fun v c => 10 * v + (c.toNat - '0'.toNat)) 0

/-- `LONG_MAX` of an LP64 `long`. -/
def LONG_MAX : Nat := 9223372036854775807

/-- `errno = 0; strtol(ptr2, NULL, 10)` on a string that `isdigit` accepted: the value
of its leading digits, whatever follows them, or `none` when `errno` is `ERANGE`. -/
def strtol (s : String) : Option Nat :=
  let v := digitsValue (s.data.takeWhile Char.isDigit)
  if v ≤ LONG_MAX then some v else none

@[simp] theorem strcmp_eq_zero {a b : String} : strcmp a b = 0 ↔ a = b := by
  unfold strcmp; split <;> simp_all

@[simp] theorem strncmp_eq_zero {a b : String} {n : Nat} :
    strncmp a b n = 0 ↔ a.data.take n = b.data.take n := by
  unfold strncmp; split <;> simp_all

/-- `strncmp(path, v, strlen(v)) == 0` says that `v` is a prefix of `path`. -/
theorem strncmp_length_eq_zero {path v : String} :
    strncmp path v v.length = 0 ↔ v.data <+: path.data := by
  have hl : v.length = v.data.length := rfl
  rw [strncmp_eq_zero, hl, List.take_of_length_le (le_refl _), List.prefix_iff_eq_take, eq_comm]

/-! ### Tokens -/

/-- The line whose tokens are `ws`, with one blank between two of them. -/
def unwords (ws : List String) : String := ⟨[' '].intercalate (ws.map String.data)⟩

private theorem intercalate_cons_cons {α : Type} (x a b : List α) (l : List (List α)) :
    x.intercalate (a :: b :: l) = a ++ x ++ x.intercalate (b :: l) := by
  simp [List.intercalate, List.intersperse_cons₂]

/-- Words without a blank, joined by single blanks, are the tokens `strtok` hands back. -/
theorem strtok_unwords {ws : List String} (hne : ∀ w ∈ ws, w.data ≠ [])
    (hsp : ∀ w ∈ ws, ' ' ∉ w.data) : strtok (unwords ws) = ws := by
  cases ws with
  | nil => rfl
  | cons w ws =>
    simp only [strtok, unwords]
    rw [List.splitOn_intercalate _ _ (by simpa using hsp) (by simp), List.filter_eq_self.2]
    · simp only [List.map_cons, List.map_map]
      exact congrArg _ (List.map_id' ws)
    · simpa using hne

/-- A character other than the blank is in the line when it is in one of its words. -/
theorem mem_unwords {c : Char} (h : c ≠ ' ') {ws : List String} :
    c ∈ (unwords ws).data ↔ ∃ w ∈ ws, c ∈ w.data := by
  simp only [unwords]
  induction ws with
  | nil => simp [List.intercalate]
  | cons a ws ih =>
    cases ws with
    | nil => simp [List.intercalate]
    | cons b ws =>
      simp only [List.map_cons] at ih ⊢
      rw [intercalate_cons_cons]
      simp [ih, h]

private theorem span_name_eq {l rest : List Char} (h : '=' ∉ l) :
    (l ++ '=' :: rest).span (· != '=') = (l, '=' :: rest) := by
  rw [List.span_eq_take_drop]
  induction l with
  | nil => simp
  | cons c l ih =>
    simp only [List.mem_cons, not_or] at h
    simp_all [List.takeWhile_cons, List.dropWhile_cons, Ne.symm h.1]

/-- A name without `=`, then `=`, then the value: `strchr` cuts it back into the two. -/
theorem splitAtEq_append {name value : String} (h : '=' ∉ name.data) :
    splitAtEq ⟨name.data ++ '=' :: value.data⟩ = some (name, value) := by
  unfold splitAtEq; rw [span_name_eq h]

theorem splitAtEq_eq_none {tok : String} : splitAtEq tok = none ↔ '=' ∉ tok.data := by
  unfold splitAtEq
  rw [List.span_eq_take_drop]
  split <;> rename_i h <;> simp only [Prod.mk.injEq] at h
  · simp only [List.dropWhile_eq_nil_iff, bne_iff_ne, ne_eq] at h
    simpa using fun hm => h.2 _ hm rfl
  · have hc := List.head_dropWhile_not (· != '=') tok.data (by simp [h.2])
    simp only [h.2, List.head_cons, bne_eq_false_iff_eq] at hc
    subst hc
    have hd : '=' ∈ tok.data.dropWhile (· != '=') := by rw [h.2]; exact List.mem_cons_self _ _
    simpa using List.dropWhile_subset _ hd

end Fapolicyd
