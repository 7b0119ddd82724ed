import Dlm.Cpg.Changes
import Dlm.Cpg.Protocol
import Dlm.Lib.Bytes

/-!
# The bytes of `START` and `PLOCKS_STORED`

`send_info` and `dlm_send_message` write a header of 40 bytes, a `ls_info` of
32 bytes and the `id_info` entries, every number in little endian; `deliver_cb`
and `receive_start` read them, possibly on a machine of the other byte order.
-/

namespace Dlm.Cpg

variable {writer reader : Endian}

/-- Numbers in memory, with the width of each. -/
def storeFields (host : Endian) (fields : List (Nat × Nat)) : List UInt8 :=
  fields.flatMap fun field => storeLe host field.1 field.2

def loadFields (host : Endian) : List Nat → List UInt8 → List Nat
  | [], _ => []
  | width :: later, bytes =>
      loadLe host (bytes.take width) ::
        loadFields host later (bytes.drop width)

/-- The entries as `ids_in` and `match_change` walk over them; `none` stands
for a read behind the end of the message. -/
def loadIds (host : Endian) (size : Nat) :
    Nat → List UInt8 → Option (List Int32)
  | 0, _ => some []
  | count + 1, bytes =>
      if bytes.length < 4 then none
      else
        (loadIds host size count (bytes.drop size)).map
          ((UInt32.ofNat (loadLe host (bytes.take 4))).toInt32 :: ·)

/-- `DLM_MSG_START` and `DLM_MSG_PLOCKS_STORED`. -/
def InfoType.code : InfoType → Nat
  | .start => 2
  | .plocksStored => 8

/-- `DLM_MFLG_JOINING` and `DLM_MFLG_HAVEPLOCK`. -/
def Flags.code (flags : Flags) : Nat :=
  flags.joining.toNat + 2 * flags.havePlock.toNat

/-- What `dlm_send_message` and `deliver_cb` take from the daemon. -/
structure Origin where
  daemonRun : ProtocolVersion
  nodeid : Int32
  globalId : UInt32

/-- The header and the `ls_info`. -/
def headFields (origin : Origin) (li : LsInfo) : List (Nat × Nat) :=
  [(2, origin.daemonRun.major.toNat), (2, origin.daemonRun.minor.toNat),
    (2, origin.daemonRun.patch.toNat), (2, li.type.code),
    (4, origin.nodeid.toUInt32.toNat), (4, 0), (4, origin.globalId.toNat),
    (4, li.flags.code), (4, li.seq.toNat), (4, 0), (8, 0),
    (4, 32), (4, 4), (4, li.memberCount), (4, li.startedCount.toNat),
    (4, li.memberCount), (4, li.joinedCount), (4, li.removeCount),
    (4, li.failedCount)]

def storeIds (host : Endian) (ids : List Int32) : List UInt8 :=
  storeFields host (ids.map fun nodeid => (4, nodeid.toUInt32.toNat))

/-- The message of `send_info`. -/
def infoBytes (host : Endian) (origin : Origin) (li : LsInfo) : List UInt8 :=
  storeFields host (headFields origin li) ++ storeIds host li.ids

def headWidths : List Nat :=
  [2, 2, 2, 2, 4, 4, 4, 4, 4, 4, 8, 4, 4, 4, 4, 4, 4, 4, 4]

inductive Refusal
  | short | version | nodeid | type | overrun
  deriving DecidableEq, Repr

/-- `deliver_cb` for the two messages, up to `find_change` of the receiver.
`sender` is the node that the process group names. -/
def readInfo (host : Endian) (us : Origin) (sender : Int32) (about : Nat)
    (data : List UInt8) : Except Refusal LsInfo := do
  if data.length < 40 then
    throw .short
  let [major, minor, _, code, nodeid, _, _, flags, seq, _, _, _, size, count,
      started, members, joined, removed, failed] :=
    loadFields host headWidths data | throw .short
  if major ≠ us.daemonRun.major.toNat ∨ minor ≠ us.daemonRun.minor.toNat then
    throw .version
  if nodeid ≠ sender.toUInt32.toNat then
    throw .nodeid
  let some type := [InfoType.start, .plocksStored].find? (·.code == code)
    | throw .type
  if data.length < 72 then
    throw .overrun
  let some ids := loadIds host size count (data.drop 72) | throw .overrun
  return {
    type := type
    seq := .ofNat seq
    flags := { joining := flags.testBit 0, havePlock := flags.testBit 1 }
    startedCount := .ofNat started
    memberCount := members
    joinedCount := joined
    removeCount := removed
    failedCount := failed
    ids := ids
    about := about }

theorem loadFields_storeFields {fields : List (Nat × Nat)}
    {later : List UInt8}
    (fit : ∀ field ∈ fields, field.2 < Nat.pow 256 field.1) :
    loadFields reader (fields.map Prod.fst)
        (storeFields writer fields ++ later) = fields.map Prod.snd := by
  induction fields with
  | nil => rfl
  | cons field fields induction =>
      have rest := induction fun other member => fit other (.tail _ member)
      simp only [List.map_cons, loadFields, storeFields, List.flatMap_cons,
        List.append_assoc]
      rw [List.take_left' (length_storeLe ..),
        List.drop_left' (length_storeLe ..),
        loadLe_storeLe (fit field List.mem_cons_self)]
      exact congrArg _ rest

theorem loadIds_storeIds (ids : List Int32) :
    loadIds reader 4 ids.length (storeIds writer ids) = some ids := by
  induction ids with
  | nil => rfl
  | cons nodeid later induction =>
      have here : loadLe reader (storeLe writer 4 nodeid.toUInt32.toNat) = _ :=
        loadLe_storeLe nodeid.toUInt32.toNat_lt
      change loadIds reader 4 (later.length + 1)
        (_ ++ storeIds writer later) = _
      rw [loadIds, List.take_left' (length_storeLe ..),
        List.drop_left' (length_storeLe ..), here, induction,
        UInt32.ofNat_toNat,
        if_neg (by simp)]
      rfl

theorem Flags.code_bits (flags : Flags) :
    flags.code < 4 ∧ flags.code.testBit 0 = flags.joining ∧
      flags.code.testBit 1 = flags.havePlock := by
  obtain ⟨joining, havePlock⟩ := flags
  cases joining <;> cases havePlock <;> decide

theorem InfoType.code_found (type : InfoType) :
    type.code < 9 ∧ [InfoType.start, .plocksStored].find?
      (·.code == type.code) = some type := by
  cases type <;> decide

/-- There is an id for each member, and the counts are `int`s. -/
structure LsInfo.Fits (li : LsInfo) : Prop where
  listed : li.ids.length = li.memberCount
  small : ∀ count ∈ [li.memberCount, li.joinedCount, li.removeCount,
    li.failedCount], count < 2 ^ 31

theorem headFields_fit (origin : Origin) {li : LsInfo} (fits : li.Fits) :
    ∀ field ∈ headFields origin li, field.2 < Nat.pow 256 field.1 := by
  have short (value : UInt16) : value.toNat < Nat.pow 256 2 := value.toNat_lt
  have long (value : UInt32) : value.toNat < Nat.pow 256 4 := value.toNat_lt
  have small {value bound : Nat} (below : value < bound) {width : Nat}
      (fit : bound ≤ Nat.pow 256 width) : value < Nat.pow 256 width :=
    Nat.lt_of_lt_of_le below fit
  have counts := fits.small
  simp only [List.forall_mem_cons] at counts
  obtain ⟨members, joined, removed, failed, -⟩ := counts
  have type := small li.type.code_found.1 (by decide : 9 ≤ Nat.pow 256 2)
  have flags := small li.flags.code_bits.1 (by decide : 4 ≤ Nat.pow 256 4)
  have int : 2 ^ 31 ≤ Nat.pow 256 4 := by decide
  simp only [headFields, List.forall_mem_cons]
  exact ⟨short _, short _, short _, type, long _, by decide, long _, flags,
    long _, by decide, by decide, by decide, by decide, small members int,
    long _, small members int, small joined int, small removed int,
    small failed int, List.forall_mem_nil _⟩

theorem loadFields_infoBytes {origin : Origin} {li : LsInfo}
    (fits : li.Fits) :
    loadFields reader headWidths (infoBytes writer origin li) =
      (headFields origin li).map Prod.snd :=
  loadFields_storeFields (headFields_fit origin fits)

/-- Whatever the byte orders of the two machines are, the receiver refuses the
message of `send_info` if it runs another version or the header names another
node than the process group does, and reads what was sent otherwise. -/
theorem readInfo_infoBytes (writer reader : Endian) (origin us : Origin)
    (sender : Int32) (li : LsInfo) (fits : li.Fits) :
    readInfo reader us sender li.about (infoBytes writer origin li) =
      if origin.daemonRun.major ≠ us.daemonRun.major ∨
          origin.daemonRun.minor ≠ us.daemonRun.minor then .error .version
      else if origin.nodeid ≠ sender then .error .nodeid
      else .ok li := by
  have length : (storeFields writer (headFields origin li)).length = 72 := by
    simp [storeFields, headFields]
  have long : ¬ (infoBytes writer origin li).length < 72 := by
    simp [infoBytes, length]
  have ids : loadIds reader 4 li.memberCount
      ((infoBytes writer origin li).drop 72) = some li.ids := by
    rw [infoBytes, List.drop_left' length, ← fits.listed, loadIds_storeIds]
  have whole : ¬ (infoBytes writer origin li).length < 40 := by
    omega
  have same : origin.nodeid.toUInt32 = sender.toUInt32 ↔
      origin.nodeid = sender :=
    ⟨congrArg UInt32.toInt32, congrArg Int32.toUInt32⟩
  simp only [readInfo, loadFields_infoBytes fits, headFields, List.map, ids,
    li.type.code_found, li.flags.code_bits, long, whole, if_false,
    UInt32.ofNat_toNat, UInt16.toNat_inj, UInt32.toNat_inj, same, ne_eq]
  split
  · rfl
  · split
    · rfl
    · rfl

/-- The `START` of node 3, which joins node 1. -/
def joiningStart : LsInfo :=
  { type := .start
    seq := 1
    flags := { joining := true, havePlock := false }
    startedCount := 0
    memberCount := 2
    joinedCount := 1
    removeCount := 0
    failedCount := 0
    ids := [1, 3]
    about := 0 }

/-- A node whose daemon runs version 2.1. -/
def originOf (nodeid : Int32) (patch : UInt16) : Origin :=
  { daemonRun := { major := 2, minor := 1, patch := patch, flags := 0 }
    nodeid := nodeid
    globalId := 7 }

theorem joiningStart_read :
    readInfo .big (originOf 1 1) 3 0
        (infoBytes .little (originOf 3 0) joiningStart) =
      .ok joiningStart := by
  have fits : joiningStart.Fits := by
    constructor
    · rfl
    · decide
  exact readInfo_infoBytes .little .big (originOf 3 0) (originOf 1 1) 3
    joiningStart fits

end Dlm.Cpg
