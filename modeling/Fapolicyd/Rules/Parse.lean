import Fapolicyd.Rules.Record

/-!
# Parsing a rule line

`nv_split(buf, n, lineno)` reads one line of the rules file into the node
`n`. A line holding a `:` anywhere is in the colon dialect, any other in the
legacy one. The first token is the decision. In the legacy dialect each later
token is `name=value`, resolved as a subject field first and as an object field
second, or the bare word `all`, which fills the subject list if it is still
empty and the object list otherwise. In the colon dialect the first `name=value`
token is `perm=` or a subject field, and `parse_new_format` reads every token
after it: subject fields up to the token `:`, object fields after it. At the
end a rule without a subject field or without an object field is refused.

`nv_split` returns `-1` for a blank or comment line, `0` for a rule and a
positive code for an error, each error with its message; `assign_subject`
ends the process when a user name is unknown.

## The model

Each routine returns an `Outcome`: its return code, the node as it leaves it
and the messages it logged; or `exit` with the messages logged before
`exit(1)`; or `overrun`, where the routine writes a field at index
`MAX_FIELDS`, past the end of `s[MAX_FIELDS]` or `o[MAX_FIELDS]`. No routine
compares a count with `MAX_FIELDS` before it writes: `assign_subject` and
`assign_object` write the field's type at `s[s_count]` or `o[o_count]` first.
C leaves the rest of such a run undefined, and the model stops there. The token
stream of `strtok` is the list `strtok buf`, and the loops are structural
recursions over what is left of it. The return values the code ignores are
ignored here too: `parse_new_format`'s whole result, the codes `1` and `2` of
`assign_subject` (the code tests only for `3`, which it never returns), and the
result of `assign_object`.

What is not modelled: a failed `strdup` or `malloc` (allocation is taken to
succeed), and the type that `assign_subject` writes into the unused slot
`s[s_count]` before it refuses a value. That type is a pattern or a numeric
type, since only those values are refused. A build without `DEBUG` reads the
slot only in `check_object`, whose test for an `exe` or `exe_dir` field
reads such a type as it reads `UNUSED`; the `DEBUG` build's
`sanity_check_node` would count it, and is not modelled.
-/

namespace Fapolicyd

/-- `PATTERN_NORMAL_STR`. -/
def PATTERN_NORMAL_STR : String := "normal"
/-- `PATTERN_NORMAL_VAL`. -/
def PATTERN_NORMAL_VAL : BitVec 32 := 0
/-- `PATTERN_LD_SO_STR`. -/
def PATTERN_LD_SO_STR : String := "ld_so"
/-- `PATTERN_LD_SO_VAL`. -/
def PATTERN_LD_SO_VAL : BitVec 32 := 1
/-- `PATTERN_STATIC_STR`. -/
def PATTERN_STATIC_STR : String := "static"
/-- `PATTERN_STATIC_VAL`. -/
def PATTERN_STATIC_VAL : BitVec 32 := 2

/-- The messages `rules.c` logs: the parser's `msg(LOG_ERR, ...)`, and the warning and
notice of `rules_unsupport_audit`. -/
inductive Msg where
  | unknownPattern (value : String) (lineno : Nat)
  | errorConverting (value : String) (lineno : Nat)
  | userUnknown (name : String)
  | fieldUnknown (name : String) (lineno : Nat)
  | equalsMissing (token : String) (lineno : Nat)
  | invalidDecision (token : String) (lineno : Nat)
  | accessUnknown (value : String) (lineno : Nat)
  | allMisplaced
  | subjectMissing (lineno : Nat)
  | objectMissing (lineno : Nat)
  | auditUnsupported
  | convertingRules
  deriving DecidableEq, Repr

/-- The text of a message, as the format strings of `rules.c` print it. -/
def Msg.text : Msg → String
  | .unknownPattern v l => s!"Unknown pattern value {v} in line {l}"
  | .errorConverting v l => s!"Error converting val ({v}) in line {l}"
  | .userUnknown v => s!"user {v} is unknown"
  | .fieldUnknown v l => s!"Field type ({v}) is unknown in line {l}"
  | .equalsMissing v l => s!"\x27=\x27 is missing for field {v}, in line {l}"
  | .invalidDecision v l => s!"Invalid decision ({v}) in line {l}"
  | .accessUnknown v l => s!"Access permission ({v}) is unknown in line {l}"
  | .allMisplaced => "All can only be used in place of a subject or object"
  | .subjectMissing l => s!"Subject is missing in line {l}"
  | .objectMissing l => s!"Object is missing in line {l}"
  | .auditUnsupported => "Rules with audit events are not supported by the kernel"
  | .convertingRules => "Converting rules to non-audit rules"

/-- How a parsing routine ends, after logging `log`. -/
inductive Outcome where
  /-- It returns `rc`, with the node `n` as it leaves it. -/
  | ret (rc : Int) (n : LNode) (log : List Msg)
  /-- The process ends in `exit(1)`. -/
  | exit (log : List Msg)
  /-- The routine writes a field at index `MAX_FIELDS`, past its array. -/
  | overrun (log : List Msg)
  deriving DecidableEq, Repr

/-- The outcome of a routine called after `log` was logged. -/
def Outcome.after (log : List Msg) : Outcome → Outcome
  | .ret rc n l => .ret rc n (log ++ l)
  | .exit l => .exit (log ++ l)
  | .overrun l => .overrun (log ++ l)

@[simp] theorem Outcome.after_nil (r : Outcome) : r.after [] = r := by cases r <;> rfl

/-- The rest of a routine after a call: `k` on the code, the node and the messages of a
call that returns; the `exit` or the `overrun` of a call is the routine's own. -/
def Outcome.bind : Outcome → (Int → LNode → List Msg → Outcome) → Outcome
  | .ret rc n log, k => k rc n log
  | .exit log, _ => .exit log
  | .overrun log, _ => .overrun log

@[simp] theorem Outcome.ret_bind {rc : Int} {n : LNode} {log : List Msg}
    {k : Int → LNode → List Msg → Outcome} : (Outcome.ret rc n log).bind k = k rc n log := rfl

@[simp] theorem Outcome.overrun_bind {log : List Msg} {k : Int → LNode → List Msg → Outcome} :
    (Outcome.overrun log).bind k = .overrun log := rfl

section Parse

variable (D : NameTables)

/-- `assign_subject(n, type, ptr2, lineno)`: store the field at `s[s_count]`, which is past
the array once `s_count` is `MAX_FIELDS`. A string type keeps the text; a pattern takes
the code of `ld_so` or `static`; a numeric type takes the number its leading digits spell,
or for `auid` and `uid` the id of the user it names; any other text leaves the value
unwritten. -/
def assignSubject (n : LNode) (type : SubjType) (ptr2 : String) (lineno : Nat) : Outcome :=
  if h : MAX_FIELDS ≤ n.s.length then .overrun []
  else
    let stored (v : SubjValue) : Outcome := .ret 0 (n.pushSubject ⟨type, v⟩ (Nat.not_le.1 h)) []
    if type.isStr then stored (.str ptr2)
    else if type = .pattern then
      if strcmp ptr2 PATTERN_LD_SO_STR = 0 then stored (.val PATTERN_LD_SO_VAL)
      else if strcmp ptr2 PATTERN_STATIC_STR = 0 then stored (.val PATTERN_STATIC_VAL)
      else .ret 2 n [.unknownPattern ptr2 lineno]
    else if isdigit ptr2 then
      match strtol ptr2 with
      | some v => stored (.val (BitVec.ofNat 32 v))
      | none => .ret 2 n [.errorConverting ptr2 lineno]
    else if type = .auid ∨ type = .uid then
      match D.getpwnam ptr2 with
      | some uid => stored (.val (BitVec.ofNat 32 uid))
      | none => .exit [.userUnknown ptr2]
    else stored .unset

/-- `assign_object(n, type, ptr2, lineno)`: store the field at `o[o_count]`, which is past
the array once `o_count` is `MAX_FIELDS`, with `strlen` of the text for a directory (the
length of the `String`, one `Char` for each byte). -/
def assignObject (n : LNode) (type : ObjType) (ptr2 : String) : Outcome :=
  if h : MAX_FIELDS ≤ n.o.length then .overrun []
  else .ret 0 (n.pushObject ⟨type, ptr2, if type = .odir then ptr2.length else 0⟩ (Nat.not_le.1 h)) []

/-- A subject field in the middle of a loop: `assign_subject`, then `-1` if it returned
`3`, else the rest of the loop `k` on the node it left. -/
def subjectThen (n : LNode) (type : SubjType) (ptr2 : String) (lineno : Nat)
    (k : LNode → Outcome) : Outcome :=
  (assignSubject D n type ptr2 lineno).bind fun rc n' log =>
    if rc = 3 then .ret (-1) n' log else (k n').after log

/-- An object field in the middle of a loop: `assign_object`, whose code no caller reads,
then the rest of the loop `k` on the node it left. -/
def objectThen (n : LNode) (type : ObjType) (ptr2 : String) (k : LNode → Outcome) : Outcome :=
  (assignObject n type ptr2).bind fun _ n' log => (k n').after log

/-- `parse_new_format(n, lineno)` on the tokens left, `state` being `0` before the token
`:` and `1` after it. -/
def parseNewFormat (lineno : Nat) : Nat → LNode → List String → Outcome
  | _, n, [] => .ret 0 n []
  | state, n, ptr :: rest =>
    match splitAtEq ptr with
    | some (name, ptr2) =>
      if state = 0 then
        match D.subjNameToVal name 2 with
        | none => .ret 1 n [.fieldUnknown name lineno]
        | some type => subjectThen D n type ptr2 lineno (parseNewFormat lineno state · rest)
      else
        match D.objNameToVal name with
        | none => .ret 2 n [.fieldUnknown name lineno]
        | some type => objectThen n type ptr2 (parseNewFormat lineno state · rest)
    | none =>
      if state = 0 ∧ strcmp ptr ":" = 0 then parseNewFormat lineno 1 n rest
      else if strcmp ptr "all" = 0 then
        if state = 0 then subjectThen D n .allSubj "" lineno fun n' =>
            parseNewFormat lineno state n' rest
        else objectThen n .allObj "" (parseNewFormat lineno state · rest)
      else .ret 5 n [.equalsMissing ptr lineno]

/-- `finish_up`: the last check, for a missing subject or object. -/
def finishUp (n : LNode) (lineno : Nat) : Outcome :=
  if n.s.length = 0 then .ret 6 n [.subjectMissing lineno]
  else if n.o.length = 0 then .ret 7 n [.objectMissing lineno]
  else .ret 0 n []

/-- The first `name=value` token of a colon-dialect line: `perm=` sets the access, any
other name is a subject field. Returns `0` to go on to `parse_new_format`, or the code
`nv_split` returns at once. -/
def colonFirst (n : LNode) (name ptr2 : String) (lineno : Nat) : Outcome :=
  if strcmp name "perm" = 0 then
    if strcmp ptr2 "execute" = 0 then .ret 0 { n with a := .execAcc } []
    else if strcmp ptr2 "any" = 0 then .ret 0 { n with a := .anyAcc } []
    else if strcmp ptr2 "open" ≠ 0 then .ret 2 n [.accessUnknown ptr2 lineno]
    else .ret 0 n []
  else
    match D.subjNameToVal name 2 with
    | none => .ret 1 n [.fieldUnknown name lineno]
    | some type => subjectThen D n type ptr2 lineno fun n' => .ret 0 n' []

/-- The loop of `nv_split` over the tokens after the decision. -/
def nvSplitLoop (format : RFormat) (lineno : Nat) : LNode → List String → Outcome
  | n, [] => finishUp n lineno
  | n, ptr :: rest =>
    match splitAtEq ptr with
    | some (name, ptr2) =>
      if format = .ruleFmtColon then
        (colonFirst D n name ptr2 lineno).bind fun rc n' log =>
          if rc ≠ 0 then .ret rc n' log
          else ((parseNewFormat D lineno 0 n' rest).bind fun _ n'' log' =>
            (finishUp n'' lineno).after log').after log
      else
        match D.subjNameToVal name format.toNat with
        | none =>
          match D.objNameToVal name with
          | none => .ret 3 n [.fieldUnknown name lineno]
          | some type => objectThen n type ptr2 (nvSplitLoop format lineno · rest)
        | some type => subjectThen D n type ptr2 lineno (nvSplitLoop format lineno · rest)
    | none =>
      if strcmp ptr "all" = 0 then
        if n.s.length = 0 then subjectThen D n .allSubj "" lineno (nvSplitLoop format lineno · rest)
        else if n.o.length = 0 then objectThen n .allObj "" (nvSplitLoop format lineno · rest)
        else .ret 4 n [.allMisplaced]
      else .ret 5 n [.equalsMissing ptr lineno]

/-- `strchr(buf, ':')`: a `:` anywhere in the line selects the colon dialect. -/
def lineFormat (buf : String) : RFormat :=
  if ':' ∈ buf.data then .ruleFmtColon else .ruleFmtOrig

/-- `nv_split(buf, n, lineno)` on the fresh node of `rules_append`. -/
def nvSplit (buf : String) (lineno : Nat) : Outcome :=
  let format := lineFormat buf
  let n : LNode := { LNode.empty with format }
  match strtok buf with
  | [] => .ret (-1) n []
  | ptr :: rest =>
    if ptr.data.head? = some '#' then .ret (-1) n []
    else match D.decNameToVal ptr with
      | none => .ret 1 n [.invalidDecision ptr lineno]
      | some d => nvSplitLoop D format lineno { n with d, a := .openAcc } rest

end Parse

end Fapolicyd
