import Dlm.Lib.Bytes
import Dlm.Main.Dump

/-!
# The requests of the clients

A request names a lockspace in an array of 64 bytes without a terminator.  The
client fills it with `strncpy`, and the daemon reads it as a string.  A name of
64 bytes then goes on in what lies behind the header.  The names of the
lockspaces are ended by a cleared byte, those of the registered file systems by
whatever `malloc` returns.
-/

namespace Dlm.Main

def DLM_LOCKSPACE_LEN : Nat := 64

def DLMC_CMD_DUMP_PLOCKS : UInt32 := 2
def DLMC_CMD_LOCKSPACE_INFO : UInt32 := 3
def DLMC_CMD_NODE_INFO : UInt32 := 4
def DLMC_CMD_LOCKSPACES : UInt32 := 5
def DLMC_CMD_LOCKSPACE_NODES : UInt32 := 6
def DLMC_CMD_FS_REGISTER : UInt32 := 7
def DLMC_CMD_FS_UNREGISTER : UInt32 := 8
def DLMC_CMD_FS_NOTIFIED : UInt32 := 9
def DLMC_CMD_DEADLOCK_CHECK : UInt32 := 10

def EALREADY : Int := 114
def ENOMEM : Int := 12

/-- `struct dlmc_header` without the unused fields. -/
structure RequestHeader where
  magic : UInt32
  version : UInt32
  command : UInt32
  option : UInt32
  len : UInt32
  data : Int32
  name : List UInt8

/-- `init_header` of the client library. -/
def Client.initHeader (cmd : UInt32) (name : List UInt8) (extraLen : Nat) :
    RequestHeader :=
  { magic := DLMC_MAGIC
    version := DLMC_VERSION
    command := cmd
    option := 0
    len := UInt32.ofNat (DLMC_HEADER_SIZE + extraLen)
    data := 0
    name :=
      strncpy (List.replicate DLM_LOCKSPACE_LEN 0) name DLM_LOCKSPACE_LEN }

/-- The name of a `struct lockspace`, an array that is ended, and the flag that
the requests set. -/
structure Ls where
  name : List UInt8
  fsRegistered : Bool
  length_name : name.length = DLM_LOCKSPACE_LEN + 1
  ended : 0 ∈ name

def Ls.text (ls : Ls) : List UInt8 :=
  cString ls.name

/-- The entries of `fs_register_list` are the memory from `fs->name` on. -/
structure Registry where
  lockspaces : List Ls
  fsRegisterList : List (List UInt8)

/-- What a request finds in memory: the bytes behind the header, what `malloc`
returns for a `struct fs_reg`, and whether the extra data is read. -/
structure Memory where
  stack : List UInt8
  heap : Option (List UInt8)
  extra : Bool

/-- The memory from the name in a header on. -/
def Memory.nameOf (memory : Memory) (h : RequestHeader) : List UInt8 :=
  h.name ++ memory.stack

/-- The name that `create_ls` leaves in the cleared array. -/
def lsName (name : List UInt8) : List UInt8 :=
  strncpy (List.replicate (DLM_LOCKSPACE_LEN + 1) 0) name DLM_LOCKSPACE_LEN

theorem length_lsName (name : List UInt8) :
    (lsName name).length = DLM_LOCKSPACE_LEN + 1 := by
  simp only [lsName, strncpy, List.length_append, List.length_replicate,
    List.length_drop, List.length_take]
  omega

theorem zero_mem_lsName (name : List UInt8) : 0 ∈ lsName name := by
  have last : (0 : UInt8) ∈ (List.replicate (DLM_LOCKSPACE_LEN + 1) 0).drop
      DLM_LOCKSPACE_LEN := by decide
  exact List.mem_append_right _ (List.mem_append_right _ last)

/-- `create_ls`. -/
def createLs (name : List UInt8) : Ls :=
  { name := lsName name
    fsRegistered := false
    length_name := length_lsName name
    ended := zero_mem_lsName name }

/-- `find_ls`, with the memory from the name on. -/
def findLs (lockspaces : List Ls) (name : List UInt8) : Option Nat :=
  lockspaces.findIdx? fun ls =>
    (cString ls.name).length == (cString name).length &&
      strncmpEq ls.name name (cString name).length

def fsRegisterCheck (list : List (List UInt8)) (name : List UInt8) : Bool :=
  list.any fun fs => cString name == cString fs

def fsRegisterAdd (heap : Option (List UInt8)) (list : List (List UInt8))
    (name : List UInt8) : Int × List (List UInt8) :=
  if fsRegisterCheck list name then (-EALREADY, list)
  else
    match heap with
    | none => (-ENOMEM, list)
    | some fs => (0, strncpy fs name DLM_LOCKSPACE_LEN :: list)

def fsRegisterDel (list : List (List UInt8)) (name : List UInt8) :
    List (List UInt8) :=
  list.eraseP fun fs => cString name == cString fs

/-- What the daemon does for a request, with the lockspace it is for. -/
inductive Handled where
  | fsRegister (rv : Int) (ls : Option Nat)
  | fsUnregister (ls : Option Nat)
  | fsNotified (ls : Option Nat) (nodeid : Int32)
  | deadlockCheck (ls : Option Nat)
  | dumpDebug
  | dumpPlocks (ls : Option Nat)
  | lockspaceInfo (ls : Option Nat)
  | nodeInfo (ls : Option Nat) (nodeid : Int32)
  | lockspaces (max : Int32)
  | lockspaceNodes (ls : Option Nat) (option : UInt32) (max : Int32)
  deriving DecidableEq, Repr

def Handled.ls : Handled → Option Nat
  | .fsRegister _ ls => ls
  | .fsUnregister ls => ls
  | .fsNotified ls _ => ls
  | .deadlockCheck ls => ls
  | .dumpDebug => none
  | .dumpPlocks ls => ls
  | .lockspaceInfo ls => ls
  | .nodeInfo ls _ => ls
  | .lockspaces _ => none
  | .lockspaceNodes ls _ _ => ls

/-- `ls->fs_registered`, if there is such a lockspace. -/
def setFsRegistered (ls : Option Nat) (value : Bool) (lockspaces : List Ls) :
    List Ls :=
  match ls with
  | none => lockspaces
  | some index =>
      lockspaces.modify index fun ls => { ls with fsRegistered := value }

/-- The tests of the header in `process_connection` and `process_queries`. -/
def RequestHeader.accepted (h : RequestHeader) : Bool :=
  h.magic == DLMC_MAGIC &&
    h.version &&& 0xFFFF0000 == DLMC_VERSION &&& 0xFFFF0000

/-- `process_connection`, when the header has been read. -/
def processConnection (memory : Memory) (registry : Registry)
    (h : RequestHeader) : Registry × Option Handled :=
  let name := memory.nameOf h
  let ls := findLs registry.lockspaces name
  if !h.accepted then (registry, none)
  else if DLMC_HEADER_SIZE < h.len.toNat ∧ !memory.extra then (registry, none)
  else if h.command = DLMC_CMD_FS_REGISTER then
    let (rv, list) := fsRegisterAdd memory.heap registry.fsRegisterList name
    ({ lockspaces := setFsRegistered ls true registry.lockspaces
       fsRegisterList := list }, some (.fsRegister rv ls))
  else if h.command = DLMC_CMD_FS_UNREGISTER then
    ({ lockspaces := setFsRegistered ls false registry.lockspaces
       fsRegisterList := fsRegisterDel registry.fsRegisterList name },
      some (.fsUnregister ls))
  else if h.command = DLMC_CMD_FS_NOTIFIED then
    (registry, some (.fsNotified ls h.data))
  else if h.command = DLMC_CMD_DEADLOCK_CHECK then
    (registry, some (.deadlockCheck ls))
  else (registry, none)

/-- One round of the loop of `process_queries`, when the header has been
read. -/
def processQueries (memory : Memory) (registry : Registry)
    (h : RequestHeader) : Option Handled :=
  let ls := findLs registry.lockspaces (memory.nameOf h)
  if !h.accepted then none
  else if h.command = DLMC_CMD_DUMP_DEBUG then some .dumpDebug
  else if h.command = DLMC_CMD_DUMP_PLOCKS then some (.dumpPlocks ls)
  else if h.command = DLMC_CMD_LOCKSPACE_INFO then some (.lockspaceInfo ls)
  else if h.command = DLMC_CMD_NODE_INFO then some (.nodeInfo ls h.data)
  else if h.command = DLMC_CMD_LOCKSPACES then some (.lockspaces h.data)
  else if h.command = DLMC_CMD_LOCKSPACE_NODES then
    some (.lockspaceNodes ls h.option h.data)
  else none

/-- The requests that name a lockspace. -/
inductive Request where
  | dumpPlocks
  | lockspaceInfo
  | nodeInfo (nodeid : Int32)
  | lockspaceNodes (type : UInt32) (max : Int32)
  | fsRegister
  | fsUnregister
  | fsNotified (nodeid : Int32)
  | deadlockCheck

/-- The header that the client library sends. -/
def Request.header (name : List UInt8) : Request → RequestHeader
  | .dumpPlocks => Client.initHeader DLMC_CMD_DUMP_PLOCKS name 0
  | .lockspaceInfo => Client.initHeader DLMC_CMD_LOCKSPACE_INFO name 0
  | .nodeInfo nodeid =>
      { Client.initHeader DLMC_CMD_NODE_INFO name 0 with data := nodeid }
  | .lockspaceNodes type max =>
      { Client.initHeader DLMC_CMD_LOCKSPACE_NODES name 0 with
        option := type
        data := max }
  | .fsRegister => Client.initHeader DLMC_CMD_FS_REGISTER name 0
  | .fsUnregister => Client.initHeader DLMC_CMD_FS_UNREGISTER name 0
  | .fsNotified nodeid =>
      { Client.initHeader DLMC_CMD_FS_NOTIFIED name 0 with data := nodeid }
  | .deadlockCheck => Client.initHeader DLMC_CMD_DEADLOCK_CHECK name 0

/-- The request goes to the socket of the queries. -/
def Request.isQuery : Request → Bool
  | .dumpPlocks => true
  | .lockspaceInfo => true
  | .nodeInfo _ => true
  | .lockspaceNodes _ _ => true
  | _ => false

/-- What the daemon does for the request. -/
def Request.serve (memory : Memory) (registry : Registry)
    (name : List UInt8) (request : Request) : Option Handled :=
  if request.isQuery then
    processQueries memory registry (request.header name)
  else (processConnection memory registry (request.header name)).2

/-- A name that a lockspace can have. -/
structure LockspaceName where
  bytes : List UInt8
  some_ : 1 ≤ bytes.length
  short : bytes.length ≤ DLM_LOCKSPACE_LEN
  textual : 0 ∉ bytes

/-- The request is served for the lockspace with exactly that name, if there is
one. -/
def Resolved (memory : Memory) (registry : Registry) (name : LockspaceName)
    (request : Request) : Prop :=
  ∃ handled, request.serve memory registry name.bytes = some handled ∧
    handled.ls =
      registry.lockspaces.findIdx? fun ls => ls.text == name.bytes

/-- After the name has been registered, unless there is no memory, it is
found. -/
def Registered (memory : Memory) (registry : Registry)
    (name : LockspaceName) : Prop :=
  ∃ after rv ls,
    processConnection memory registry
        (Request.fsRegister.header name.bytes) =
      (after, some (.fsRegister rv ls)) ∧
      (rv = -ENOMEM ∨
        fsRegisterCheck after.fsRegisterList (createLs name.bytes).name = true)

section Names

theorem Ls.length_text_le (ls : Ls) : ls.text.length ≤ DLM_LOCKSPACE_LEN := by
  have shorter := length_cString_lt ls.ended
  rw [ls.length_name] at shorter
  exact Nat.le_of_lt_succ shorter

/-- The lengths and the bytes are compared, which is to compare the
strings. -/
theorem findLs_eq (lockspaces : List Ls) (name : List UInt8) :
    findLs lockspaces name =
      lockspaces.findIdx? fun ls => ls.text == cString name := by
  have test (ls : Ls) :
      ((cString ls.name).length == (cString name).length &&
        strncmpEq ls.name name (cString name).length) =
      (ls.text == cString name) := by
    by_cases same : (cString ls.name).length = (cString name).length
    · have bytes : strncmpEq ls.name name (cString name).length =
          (ls.text == cString name) := by
        rw [strncmpEq, take_length_cString, ← same, take_length_cString,
          cString_cString, cString_cString, Ls.text]
      rw [same, beq_self_eq_true, Bool.true_and, bytes]
    · have other : ls.text ≠ cString name := by
        intro equal
        exact same (congrArg List.length equal)
      rw [beq_eq_false_iff_ne.mpr same, beq_eq_false_iff_ne.mpr other,
        Bool.false_and]
  unfold findLs
  congr 1
  funext ls
  exact test ls

/-- The name of a lockspace is the string the kernel has given, if it is not
too long. -/
theorem createLs_text (name : LockspaceName) :
    (createLs name.bytes).text = name.bytes := by
  have self := cString_eq_self name.textual
  change cString (lsName name.bytes) = name.bytes
  rcases Nat.lt_or_eq_of_le name.short with short | full
  · have shorter : (cString name.bytes).length < DLM_LOCKSPACE_LEN := by
      rw [self]
      exact short
    rw [lsName, cString_strncpy_short _ shorter, self]
  · have long : DLM_LOCKSPACE_LEN ≤ (cString name.bytes).length := by
      rw [self, full]
    rw [lsName, cString_strncpy_long _ long, self, ← full, List.take_length]
    simp [full, DLM_LOCKSPACE_LEN]

/-- The string that the daemon finds in the header. -/
theorem cString_nameOf (name : LockspaceName) (memory : Memory)
    (request : Request) :
    cString (memory.nameOf (request.header name.bytes)) =
      if name.bytes.length < DLM_LOCKSPACE_LEN then name.bytes
      else name.bytes ++ cString memory.stack := by
  have field : memory.nameOf (request.header name.bytes) =
      strncpy (List.replicate DLM_LOCKSPACE_LEN 0 ++ memory.stack) name.bytes
        DLM_LOCKSPACE_LEN := by
    have sent : (request.header name.bytes).name =
        strncpy (List.replicate DLM_LOCKSPACE_LEN 0) name.bytes
          DLM_LOCKSPACE_LEN := by
      cases request <;> rfl
    rw [Memory.nameOf, sent]
    simp [strncpy, DLM_LOCKSPACE_LEN]
  have self := cString_eq_self name.textual
  rw [field]
  split
  · rename_i short
    rw [cString_strncpy_short, self]
    rw [self]
    exact short
  · rename_i long
    have full : name.bytes.length = DLM_LOCKSPACE_LEN :=
      Nat.le_antisymm name.short (Nat.le_of_not_lt long)
    have behind : (List.replicate DLM_LOCKSPACE_LEN 0 ++ memory.stack).drop
        DLM_LOCKSPACE_LEN = memory.stack :=
      List.drop_left' List.length_replicate
    rw [cString_strncpy_long, self, behind, ← full, List.take_length]
    rw [self, full]

end Names

section Served

variable {memory : Memory} {registry : Registry} {name : LockspaceName}

theorem accepted_header (name : List UInt8) (request : Request) :
    (request.header name).accepted = true := by
  have sent : (request.header name).magic = DLMC_MAGIC ∧
      (request.header name).version = DLMC_VERSION := by
    cases request <;> exact ⟨rfl, rfl⟩
  rw [RequestHeader.accepted, sent.1, sent.2, beq_self_eq_true,
    beq_self_eq_true, Bool.and_self]

theorem serve_eq (memory : Memory) (registry : Registry) (name : List UInt8)
    (request : Request) :
    (request.serve memory registry name).map Handled.ls =
      some (findLs registry.lockspaces
        (memory.nameOf (request.header name))) := by
  cases request
  case dumpPlocks | lockspaceInfo | nodeInfo | lockspaceNodes =>
    simp only [Request.serve, processQueries, accepted_header]
    rfl
  case fsRegister | fsUnregister | fsNotified | deadlockCheck =>
    simp only [Request.serve, processConnection, accepted_header]
    rfl

/-- A name of full length is not found if the header is not followed by a
NUL. -/
theorem resolved_iff (request : Request) :
    Resolved memory registry name request ↔
      name.bytes.length < DLM_LOCKSPACE_LEN ∨ cString memory.stack = [] ∨
        ∀ ls ∈ registry.lockspaces, ls.text ≠ name.bytes := by
  rw [Resolved, ← Option.map_eq_some_iff, serve_eq, Option.some_inj,
    findLs_eq, cString_nameOf]
  by_cases short : name.bytes.length < DLM_LOCKSPACE_LEN
  · simp only [short, if_true, true_or]
  by_cases ended : cString memory.stack = []
  · simp only [short, if_false, ended, List.append_nil, true_or, or_true]
  have unnamed : (registry.lockspaces.findIdx? fun ls =>
      ls.text == name.bytes ++ cString memory.stack) = none := by
    rw [List.findIdx?_eq_none_iff]
    intro ls member
    apply beq_eq_false_iff_ne.mpr
    intro same
    have fits := ls.length_text_le
    have more := List.length_pos_iff.mpr ended
    rw [same, List.length_append] at fits
    omega
  rw [if_neg short, unnamed, eq_comm, List.findIdx?_eq_none_iff]
  simp [short, ended]

/-- A file system is registered under this string. -/
def Registry.Knows (registry : Registry) (text : List UInt8) : Prop :=
  ∃ fs ∈ registry.fsRegisterList, cString fs = text

theorem fsRegisterCheck_iff (list : List (List UInt8))
    (name : List UInt8) :
    fsRegisterCheck list name = true ↔
      ∃ fs ∈ list, cString fs = cString name := by
  simp only [fsRegisterCheck, List.any_eq_true, beq_iff_eq]
  constructor
  · rintro ⟨fs, member, same⟩
    exact ⟨fs, member, same.symm⟩
  · rintro ⟨fs, member, same⟩
    exact ⟨fs, member, same.symm⟩

/-- What `fs_register_add` can do. -/
inductive Added (heap : Option (List UInt8)) (list : List (List UInt8))
    (name : List UInt8) : Int × List (List UInt8) → Prop where
  | known (listed : ∃ fs ∈ list, cString fs = cString name) :
      Added heap list name (-EALREADY, list)
  | noMemory (unlisted : ¬ ∃ fs ∈ list, cString fs = cString name)
      (failed : heap = none) : Added heap list name (-ENOMEM, list)
  | added (unlisted : ¬ ∃ fs ∈ list, cString fs = cString name)
      {fs : List UInt8} (allocated : heap = some fs) :
      Added heap list name (0, strncpy fs name DLM_LOCKSPACE_LEN :: list)

theorem added_fsRegisterAdd (heap : Option (List UInt8))
    (list : List (List UInt8)) (name : List UInt8) :
    Added heap list name (fsRegisterAdd heap list name) := by
  unfold fsRegisterAdd
  split
  · rename_i listed
    exact .known ((fsRegisterCheck_iff list name).mp listed)
  · rename_i unlisted
    rw [fsRegisterCheck_iff] at unlisted
    cases heap with
    | none => exact .noMemory unlisted rfl
    | some fs => exact .added unlisted rfl

theorem registered_eq :
    Registered memory registry name ↔
      (fsRegisterAdd memory.heap registry.fsRegisterList
          (memory.nameOf (Request.fsRegister.header name.bytes))).1 =
        -ENOMEM ∨
      ∃ fs ∈ (fsRegisterAdd memory.heap registry.fsRegisterList
          (memory.nameOf (Request.fsRegister.header name.bytes))).2,
        cString fs = name.bytes := by
  have text : cString (createLs name.bytes).name = name.bytes :=
    createLs_text name
  rw [Registered]
  simp only [processConnection, accepted_header]
  constructor
  · rintro ⟨after, rv, ls, handled, found⟩
    cases handled
    rw [fsRegisterCheck_iff, text] at found
    exact found
  · intro found
    refine ⟨_, _, _, rfl, ?_⟩
    rw [fsRegisterCheck_iff, text]
    exact found

/-- The name is found unless it has the full length and is registered in memory
that goes on behind it. -/
theorem registered_iff :
    Registered memory registry name ↔
      name.bytes.length < DLM_LOCKSPACE_LEN ∨ registry.Knows name.bytes ∨
        (¬ registry.Knows (name.bytes ++ cString memory.stack) ∧
          ∀ fs, memory.heap = some fs →
            cString (fs.drop DLM_LOCKSPACE_LEN) = []) := by
  have header := cString_nameOf name memory .fsRegister
  have cases_ := added_fsRegisterAdd memory.heap registry.fsRegisterList
    (memory.nameOf (Request.fsRegister.header name.bytes))
  rw [registered_eq]
  generalize memory.nameOf (Request.fsRegister.header name.bytes) = text
    at header cases_
  generalize fsRegisterAdd memory.heap registry.fsRegisterList text = result
    at cases_
  by_cases short : name.bytes.length < DLM_LOCKSPACE_LEN
  · rw [if_pos short] at header
    simp only [short, true_or, iff_true]
    cases cases_ with
    | known listed =>
        rw [header] at listed
        exact .inr listed
    | noMemory => exact .inl rfl
    | added unlisted allocated =>
        refine .inr ⟨_, List.mem_cons_self, ?_⟩
        rw [cString_strncpy_short, header]
        rw [header]
        exact short
  · rw [if_neg short] at header
    simp only [short, false_or]
    cases cases_ with
    | known listed =>
        have failed : ¬ -EALREADY = -ENOMEM := by decide
        rw [header] at listed
        have knows : registry.Knows (name.bytes ++ cString memory.stack) :=
          listed
        simp only [failed, knows, not_true, false_and, or_false, false_or]
        rfl
    | noMemory unlisted failed =>
        rw [header] at unlisted
        simp only [true_or, true_iff]
        refine .inr ⟨unlisted, ?_⟩
        intro fs allocated
        rw [failed] at allocated
        cases allocated
    | @added unlisted fs allocated =>
        have full : name.bytes.length = DLM_LOCKSPACE_LEN :=
          Nat.le_antisymm name.short (Nat.le_of_not_lt short)
        have entry : cString (strncpy fs text DLM_LOCKSPACE_LEN) =
            name.bytes ++ cString (fs.drop DLM_LOCKSPACE_LEN) := by
          rw [cString_strncpy_long, header, ← full, List.take_left]
          rw [header, List.length_append, full]
          exact Nat.le_add_right _ _
        have ok : ¬ (0 : Int) = -ENOMEM := by decide
        rw [header] at unlisted
        have unknown : ¬ registry.Knows
            (name.bytes ++ cString memory.stack) := unlisted
        simp only [ok, false_or, List.mem_cons, exists_eq_or_imp, entry,
          List.append_right_eq_self, unknown, not_false_iff, true_and,
          allocated, Option.some.injEq, forall_eq']
        exact or_comm

end Served

/-- Requests reach the lockspace they name, and a registered name is found,
if the name is shorter than the array.  A full name is found if a NUL happens
to be behind it in the header and in the entry. -/
theorem requests_reach_iff (memory : Memory) (registry : Registry)
    (name : LockspaceName) (request : Request) :
    Resolved memory registry name request ∧
        Registered memory registry name ↔
      name.bytes.length < DLM_LOCKSPACE_LEN ∨
        ((cString memory.stack = [] ∨
            ∀ ls ∈ registry.lockspaces, ls.text ≠ name.bytes) ∧
          (registry.Knows name.bytes ∨
            ¬ registry.Knows (name.bytes ++ cString memory.stack) ∧
              ∀ fs, memory.heap = some fs →
                cString (fs.drop DLM_LOCKSPACE_LEN) = [])) := by
  rw [resolved_iff, registered_iff]
  exact or_and_left.symm

section Full

/-- A name of the full length. -/
def fullName : LockspaceName :=
  { bytes := List.replicate DLM_LOCKSPACE_LEN 97
    some_ := by decide
    short := by decide
    textual := by decide }

/-- The lockspace with this name. -/
def fullRegistry : Registry :=
  { lockspaces := [createLs fullName.bytes], fsRegisterList := [] }

/-- Some byte behind the header, and in the memory of the entry. -/
def staleMemory : Memory :=
  { stack := [1, 0]
    heap := some (List.replicate (DLM_LOCKSPACE_LEN + 1) 1 ++ [0])
    extra := true }

end Full

/-- The lockspace is there, but no request reaches it, and the name is not
found after it has been registered. -/
theorem fullName_missed :
    (createLs fullName.bytes).text = fullName.bytes ∧
      Request.deadlockCheck.serve staleMemory fullRegistry fullName.bytes =
        some (.deadlockCheck none) ∧
      ¬ Resolved staleMemory fullRegistry fullName .deadlockCheck ∧
      ¬ Registered staleMemory fullRegistry fullName := by
  have full : ¬ fullName.bytes.length < DLM_LOCKSPACE_LEN := by decide
  refine ⟨createLs_text fullName, by decide +kernel, ?_, ?_⟩
  · rw [resolved_iff]
    rintro (short | ended | unnamed)
    · exact full short
    · exact absurd ended (by decide)
    · exact unnamed _ List.mem_cons_self (createLs_text fullName)
  · rw [registered_iff]
    rintro (short | ⟨fs, member, _⟩ | ⟨_, ended⟩)
    · exact full short
    · cases member
    · exact absurd (ended _ rfl) (by decide)

end Dlm.Main
