import Mathlib.Data.BitVec
import Fapolicyd.Rules.Parse

/-!
# Events and the pattern state of a process

`rule_evaluate(r, e)` reads an event `e`: its fanotify mask `e->type`, the
subject and object attributes the accessors `get_subj_attr(e, type)` and
`get_obj_attr(e, type)` return, and the pattern state `e->s->info` of the
process, a `proc_info` that `subj_pattern_test` reads and writes.

## The model

These types live outside `rules.c` (`event.h`, `process.h`, `file.h`) and are
given here as the code uses them. An `Event` holds the mask and the two
accessors, each `none` where the C returns `NULL`. An object attribute of an
event has a string `o`, `NULL` for the trust attribute, and a length `len`,
which for the trust attribute is the trust flag. The pattern state is a
`ProcInfo`, passed and returned explicitly since it is the one thing rule
evaluation changes.

`state_t` is in the order of `process.h`: the code compares `state <
STATE_FULL`, so the states of a process still collecting paths come before
`FULL` and the states it settles in after it.
-/

namespace Fapolicyd

/-- `FAN_OPEN_EXEC_PERM` of `<linux/fanotify.h>`: the event asks to open a file to run it. -/
def FAN_OPEN_EXEC_PERM : BitVec 32 := 0x40000

/-- Modelled from the spec: the classification states of `proc_info`, in the order of
`state_t`. -/
inductive PState where
  /-- Fewer than the two paths the analysis needs. -/
  | collecting
  /-- A static program, before its reopen. -/
  | staticReopen
  /-- The second path collected. -/
  | partialState
  /-- A static program, reopened. -/
  | staticPartial
  /-- Both paths collected: the analysis can run. -/
  | full
  /-- The program was started normally. -/
  | normal
  /-- The program is not an ELF file. -/
  | notElf
  /-- The program was started by the runtime linker. -/
  | ldSo
  /-- A static program. -/
  | static
  /-- The ELF analysis failed. -/
  | badElf
  deriving DecidableEq, Repr

/-- The position of a state in `state_t`. -/
def PState.toNat : PState → Nat
  | .collecting => 0 | .staticReopen => 1 | .partialState => 2 | .staticPartial => 3
  | .full => 4 | .normal => 5 | .notElf => 6 | .ldSo => 7 | .static => 8 | .badElf => 9

/-- Modelled from the spec: the `IS_ELF` flag of `elf_info`. -/
def IS_ELF : BitVec 32 := 0x1
/-- Modelled from the spec: the `HAS_ERROR` flag of `elf_info`. -/
def HAS_ERROR : BitVec 32 := 0x2
/-- Modelled from the spec: the `HAS_DYNAMIC` flag of `elf_info`. -/
def HAS_DYNAMIC : BitVec 32 := 0x8

/-- Modelled from the spec: `SYSTEM_LD_SO`, the path of the runtime linker. -/
def SYSTEM_LD_SO : String := "/lib64/ld-linux-x86-64.so.2"

/-- `struct proc_info`: the pattern state, the ELF flags and the two paths collected. -/
structure ProcInfo where
  state : PState
  elfInfo : BitVec 32
  path1 : Option String
  path2 : Option String
  deriving DecidableEq, Repr

/-- Modelled from the spec: `clear_proc_info`, which releases the two paths ("transient path
buffers are released"); the state stays, which is what lets `NOT_ELF` answer "no match
going forward". -/
def clearProcInfo (p : ProcInfo) : ProcInfo := { p with path1 := none, path2 := none }

@[simp] theorem clearProcInfo_state (p : ProcInfo) : (clearProcInfo p).state = p.state := rfl

/-- An object attribute of an event, `object_attr_t`: the string `o`, `NULL` for the trust
attribute, and `len`. -/
structure ObjectValue where
  o : Option String
  len : Nat
  deriving DecidableEq, Repr

/-- What `rule_evaluate` reads of an event besides the pattern state: the mask and the
attribute accessors. -/
structure Event where
  type : BitVec 32
  subj : SubjType → Option SubjValue
  obj : ObjType → Option ObjectValue

/-- The event asks to execute. -/
def Event.isExec (e : Event) : Bool := e.type &&& FAN_OPEN_EXEC_PERM != 0

/-- `is_subj_trusted(e)`: the `val` of the subject's trust attribute, false without one. -/
def isSubjTrusted (e : Event) : Bool :=
  match e.subj .subjTrust with
  | none => false
  | some v => v.val?.any (· != 0)

/-- `is_obj_trusted(e)`: the `len` of the object's trust attribute, false without one. -/
def isObjTrusted (e : Event) : Bool :=
  match e.obj .objTrust with
  | none => false
  | some v => v.len != 0

end Fapolicyd
