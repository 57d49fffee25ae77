import Fapolicyd.Library.CLib

/-!
# The rule record

`rules.c` keeps a rule in an `lnode`: its decision `d`, its access permission
`a`, the subject fields `s[0..s_count)` and object fields `o[0..o_count)`, the
dialect it was written in, and, once appended, its number `num` and the link
`next`. A subject field is a `subject_attr_t`, a type and the union of an
integer `val` and a string `str`; an object field is an `object_attr_t`, a type,
a string `o` and, for directories, its length `len`.

## The model

`LNode` holds the part of an `lnode` that `nv_split` fills. Each array is the
list of its used slots: `s` is `s[0..s_count)`, so `s_count` is `s.length`, and
`assign_subject` stores a field by appending it, at index `s_count`. The arrays
hold `MAX_FIELDS` fields each, and the node carries that bound as two fields of
the structure, so that no node of the model has more fields than the arrays
have room for. A write at index `MAX_FIELDS` cannot be a node: the routine that
makes it has the outcome `overrun` (`Fapolicyd.Rules.Parse`). A string a
field holds is the one `strdup` copied, read through the field's pointer.

The types, decision values and name tables live outside `rules.c`
(`rules.h`, `policy.h`, the attribute headers, `nv.c`, the account database).
They are given here as the code uses them: subject types in declaration
order, because `type >= COMM` marks the types that hold a string; decisions as
32-bit masks, because `rules_unsupport_audit` clears a bit; the dictionaries as
a `NameTables` parameter, each lookup `none` where the C returns `-1` or `NULL`.
-/

namespace Fapolicyd

/-- Modelled from the spec: `MAX_FIELDS` of `rules.h`, the size of each field array
("ordered sequence (bounded, max N, e.g. 8)"). -/
def MAX_FIELDS : Nat := 8

/-- Modelled from the spec: `subject_type_t`, in declaration order: the wildcard, the
numeric fields (uid, auid, gid, the pattern code, the trust flag, session and pid), then
the fields that hold a string from `COMM` on (command, executable path and directory). -/
inductive SubjType where
  | allSubj | auid | uid | sessionid | pid | pattern | subjTrust | gid
  | comm | exe | exeDir | exeType | exeDevice
  deriving DecidableEq, Repr

/-- The position of a subject type in `subject_type_t`. -/
def SubjType.toNat : SubjType → Nat
  | .allSubj => 0 | .auid => 1 | .uid => 2 | .sessionid => 3 | .pid => 4 | .pattern => 5
  | .subjTrust => 6 | .gid => 7 | .comm => 8 | .exe => 9 | .exeDir => 10 | .exeType => 11
  | .exeDevice => 12

/-- `type >= COMM`: the field holds a string. -/
def SubjType.isStr (t : SubjType) : Bool := t.toNat ≥ SubjType.comm.toNat

/-- Modelled from the spec: `object_type_t`: the wildcard, path, directory, device,
file type, trust flag and hash. -/
inductive ObjType where
  | allObj | path | odir | device | ftype | objTrust | sha256hash
  deriving DecidableEq, Repr

/-- Modelled from the spec: `decision_t` of `policy.h`, a verdict with its modifier bits
("decision keywords + audit/log modifiers"). -/
abbrev Decision := BitVec 32

/-- `NO_OPINION`: the rule did not match. -/
def NO_OPINION : Decision := 0
/-- Modelled from the spec: the `ALLOW` verdict. -/
def ALLOW : Decision := 1
/-- Modelled from the spec: the `DENY` verdict. -/
def DENY : Decision := 2
/-- Modelled from the spec: the `AUDIT` modifier bit. -/
def AUDIT : Decision := 4
/-- Modelled from the spec: the `SYSLOG` modifier bit. -/
def SYSLOG : Decision := 8

/-- `access_t`: the permission a rule applies to. -/
inductive Access where
  | openAcc | execAcc | anyAcc
  deriving DecidableEq, Repr

/-- Modelled from the spec: `rformat_t`, the dialect a rule was written in. -/
inductive RFormat where
  | ruleFmtOrig | ruleFmtColon
  deriving DecidableEq, Repr

/-- The value of an `rformat_t` as it is passed to `subj_name_to_val`. -/
def RFormat.toNat : RFormat → Nat
  | .ruleFmtOrig => 0
  | .ruleFmtColon => 1

/-- The union of a `subject_attr_t`: the integer `val`, the string `str`, or neither,
where `assign_subject` wrote nothing and the field keeps what `malloc` left. -/
inductive SubjValue where
  | val (v : BitVec 32)
  | str (s : String)
  | unset
  deriving DecidableEq, Repr

/-- The `str` member, `NULL` unless the union holds a string. -/
def SubjValue.str? : SubjValue → Option String
  | .str s => some s
  | _ => none

/-- The `val` member, read as no integer where none was written. -/
def SubjValue.val? : SubjValue → Option (BitVec 32)
  | .val v => some v
  | _ => none

/-- A subject field of a rule. -/
structure SubjectAttr where
  type : SubjType
  value : SubjValue
  deriving DecidableEq, Repr

/-- An object field of a rule: `o` is the `strdup` of the value, `len` its length
(`strlen`) for a directory and `0` otherwise. -/
structure ObjectAttr where
  type : ObjType
  o : String
  len : Nat
  deriving DecidableEq, Repr

/-- The part of an `lnode` that `nv_split` fills, the used slots of its two arrays
`s[MAX_FIELDS]` and `o[MAX_FIELDS]` with their bound. -/
@[ext] structure LNode where
  d : Decision
  a : Access
  s : List SubjectAttr
  o : List ObjectAttr
  format : RFormat
  s_count_le : s.length ≤ MAX_FIELDS := by decide
  o_count_le : o.length ≤ MAX_FIELDS := by decide
  deriving DecidableEq, Repr

/-- The node `rules_append` hands to `nv_split`: no fields yet (`s_count = o_count = 0`). -/
def LNode.empty : LNode := { d := NO_OPINION, a := .openAcc, s := [], o := [], format := .ruleFmtOrig }

/-- `n->s[n->s_count] = f; n->s_count++`, on a node whose array `s` has room. -/
@[simps] def LNode.pushSubject (n : LNode) (f : SubjectAttr) (h : n.s.length < MAX_FIELDS) : LNode :=
  { n with s := n.s ++ [f], s_count_le := by rw [List.length_append, List.length_singleton]; exact h }

/-- `n->o[n->o_count] = f; n->o_count++`, on a node whose array `o` has room. -/
@[simps] def LNode.pushObject (n : LNode) (f : ObjectAttr) (h : n.o.length < MAX_FIELDS) : LNode :=
  { n with o := n.o ++ [f], o_count_le := by rw [List.length_append, List.length_singleton]; exact h }

/-- The lookups `nv_split` makes outside `rules.c`: the field dictionary
(`dec_name_to_val`, `subj_name_to_val` with its dialect argument, `obj_name_to_val`)
and the account database (`getpwnam`, the `pw_uid` of the entry). -/
structure NameTables where
  decNameToVal : String → Option Decision
  subjNameToVal : String → Nat → Option SubjType
  objNameToVal : String → Option ObjType
  getpwnam : String → Option Nat

/-- Modelled from the spec: a field dictionary with the daemon's names ("`uid=`", the
decision keywords with their audit and syslog variants), and an account database that
knows `root`. The concrete lines of the development are read with it. -/
def daemonTables : NameTables where
  decNameToVal
    | "allow" => some ALLOW | "deny" => some DENY
    | "allow_audit" => some (ALLOW ||| AUDIT) | "deny_audit" => some (DENY ||| AUDIT)
    | "allow_syslog" => some (ALLOW ||| SYSLOG) | "deny_syslog" => some (DENY ||| SYSLOG)
    | _ => none
  subjNameToVal name format := match name with
    | "trust" => if format = 0 then none else some .subjTrust
    | "auid" => some .auid | "uid" => some .uid | "gid" => some .gid
    | "sessionid" => some .sessionid | "pid" => some .pid | "pattern" => some .pattern
    | "comm" => some .comm | "exe" => some .exe | "exe_dir" => some .exeDir
    | "exe_type" => some .exeType | "exe_device" => some .exeDevice
    | _ => none
  objNameToVal
    | "path" => some .path | "dir" => some .odir | "device" => some .device
    | "ftype" => some .ftype | "trust" => some .objTrust | "sha256hash" => some .sha256hash
    | _ => none
  getpwnam
    | "root" => some 0
    | _ => none

end Fapolicyd
