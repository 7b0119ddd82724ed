import Dlm.Lib.Bytes
import Dlm.Lib.RingBuffer

/-!
# The debug dump

Every log message goes into the ring buffer `dump_buf`, and a client may ask
for its contents.  `query_dump_debug` writes a NUL at the write position.  In a
buffer that has gone round this is the oldest byte, which the next query finds
destroyed unless a message has been logged in between.
-/

namespace Dlm.Main

def DLMC_DUMP_SIZE : Nat := 1024 * 1024

def DLMC_MAGIC : UInt32 := 0xD13CD13C
def DLMC_VERSION : UInt32 := 0x00010001
def DLMC_CMD_DUMP_DEBUG : UInt32 := 1

/-- `sizeof(struct dlmc_header)`. -/
def DLMC_HEADER_SIZE : Nat := 96

/-- `struct dlmc_header`, without the fields that stay cleared. -/
structure DlmcHeader where
  magic : UInt32
  version : UInt32
  command : UInt32
  len : Nat
  data : Int

/-- `init_header` without a name. -/
def initHeader (cmd : UInt32) (result : Int) (extraLen : Nat) : DlmcHeader :=
  { magic := DLMC_MAGIC
    version := DLMC_VERSION
    command := cmd
    len := DLMC_HEADER_SIZE + extraLen
    data := result }

/-- `dump_buf`, `dump_point` and `dump_wrap`. -/
abbrev Dump : Type := Ring UInt8 DLMC_DUMP_SIZE

/-- The static variables as the daemon starts. -/
def Dump.start : Dump :=
  { cells := List.replicate DLMC_DUMP_SIZE 0
    point := 0
    wrapped := false
    length_cells := List.length_replicate
    point_lt := Nat.mul_pos (by decide) (by decide) }

/-- `daemon_dump_save`, with the contents of `daemon_debug_buf`. -/
def daemonDumpSave (debugBuf : List UInt8) (dump : Dump) : Dump :=
  (cString debugBuf).foldl Ring.push dump

/-- What a query writes to the client. -/
structure Reply where
  header : DlmcHeader
  body : List UInt8

/-- `query_dump_debug`. -/
def queryDumpDebug (dump : Dump) : Reply × Dump :=
  let extraLen := if dump.wrapped then DLMC_DUMP_SIZE else dump.point
  let header := initHeader DLMC_CMD_DUMP_DEBUG 0 extraLen
  let tail :=
    if dump.wrapped then
      (dump.cells.drop dump.point).take (DLMC_DUMP_SIZE - dump.point)
    else []
  let terminated := dump.poke 0
  ({ header := header
     body := tail ++ terminated.cells.take dump.point }, terminated)

inductive DumpCall where
  | save (debugBuf : List UInt8)
  | query

/-- The buffer after a call. -/
def dumpCall (dump : Dump) : DumpCall → Dump
  | .save debugBuf => daemonDumpSave debugBuf dump
  | .query => (queryDumpDebug dump).2

/-- The buffer after a sequence of calls. -/
def dumpAfter (calls : List DumpCall) : Dump :=
  calls.foldl dumpCall Dump.start

/-- The bytes that a call logs. -/
def DumpCall.logs : DumpCall → List UInt8
  | .save debugBuf => cString debugBuf
  | .query => []

/-- All bytes logged so far. -/
def logged (calls : List DumpCall) : List UInt8 :=
  calls.flatMap DumpCall.logs

/-- Whether a query has been made and no byte logged after it. -/
def queriedLast (calls : List DumpCall) : Bool :=
  calls.foldl
    (fun queried call =>
      match call with
      | .save debugBuf => queried && (cString debugBuf).isEmpty
      | .query => true)
    false

/-- A query writes the contents of the buffer as it finds them. -/
theorem queryDumpDebug_body (dump : Dump) :
    (queryDumpDebug dump).1.body = dump.contents := by
  have rest : (dump.cells.drop dump.point).take
      (DLMC_DUMP_SIZE - dump.point) = dump.cells.drop dump.point := by
    apply List.take_of_length_le
    rw [List.length_drop, dump.length_cells]
  have head : (dump.poke 0).cells.take dump.point =
      dump.cells.take dump.point :=
    List.take_set_of_le (Nat.le_refl _)
  simp only [queryDumpDebug, rest, head, Ring.contents]
  split
  · rfl
  · rfl

theorem queryDumpDebug_len (dump : Dump) :
    (queryDumpDebug dump).1.header.len =
      DLMC_HEADER_SIZE + (queryDumpDebug dump).1.body.length := by
  rw [queryDumpDebug_body, Ring.length_contents]
  rfl

theorem logged_ne_zero {calls : List DumpCall} {byte : UInt8}
    (member : byte ∈ logged calls) : byte ≠ 0 := by
  obtain ⟨call, _, logs⟩ := List.mem_flatMap.mp member
  cases call with
  | save debugBuf => exact cString_ne_zero logs
  | query => cases logs

section Append

variable (calls : List DumpCall) (debugBuf : List UInt8)

theorem dumpAfter_concat (call : DumpCall) :
    dumpAfter (calls ++ [call]) = dumpCall (dumpAfter calls) call := by
  rw [dumpAfter, List.foldl_append]
  rfl

theorem logged_save :
    logged (calls ++ [.save debugBuf]) =
      logged calls ++ cString debugBuf := by
  rw [logged, List.flatMap_append, List.flatMap_singleton]
  rfl

theorem logged_query : logged (calls ++ [.query]) = logged calls := by
  rw [logged, List.flatMap_append, List.flatMap_singleton]
  exact List.append_nil _

theorem queriedLast_save :
    queriedLast (calls ++ [.save debugBuf]) =
      (queriedLast calls && (cString debugBuf).isEmpty) := by
  rw [queriedLast, List.foldl_append]
  rfl

theorem queriedLast_query : queriedLast (calls ++ [.query]) = true := by
  rw [queriedLast, List.foldl_append]
  rfl

end Append

/-- The buffer holds the log, apart from a NUL at the write position if a
query has been made and nothing logged since. -/
theorem dumpAfter_eq (calls : List DumpCall) :
    ∃ clean : Dump, clean.Holds (logged calls) ∧
      dumpAfter calls =
        if queriedLast calls then clean.poke 0 else clean := by
  induction calls using List.reverseRecOn with
  | nil => exact ⟨Dump.start, .nil rfl rfl, rfl⟩
  | append_singleton calls call induction =>
      obtain ⟨clean, holds, reached⟩ := induction
      rw [dumpAfter_concat, reached]
      cases call with
      | save debugBuf =>
          rw [logged_save, queriedLast_save]
          have saved := holds.pushAll (cString debugBuf)
          refine ⟨(cString debugBuf).foldl Ring.push clean, saved, ?_⟩
          rw [dumpCall, daemonDumpSave]
          cases bytes : cString debugBuf with
          | nil => simp
          | cons first later =>
              simp only [List.foldl_cons, List.isEmpty_cons, Bool.and_false,
                Bool.false_eq_true, if_false]
              split
              · rw [Ring.push_poke]
              · rfl
      | query =>
          rw [logged_query, queriedLast_query]
          refine ⟨clean, holds, ?_⟩
          simp only [dumpCall, queryDumpDebug, if_true]
          split
          · exact clean.poke_poke 0 0
          · rfl

/-- A buffer that has gone round and been read lacks its oldest byte. -/
theorem stale_ne {clean : Dump} {history : List UInt8}
    (holds : clean.Holds history) (textual : ∀ byte ∈ history, byte ≠ 0)
    (round : clean.wrapped = true) :
    (clean.poke 0).contents ≠ history.rtake DLMC_DUMP_SIZE := by
  rw [Ring.contents_poke, if_pos round, ← holds.contents]
  intro same
  have oldest : (0 : UInt8) ∈ history := by
    have member : (0 : UInt8) ∈ clean.contents := by
      rw [← same]
      exact List.mem_cons_self
    rw [holds.contents] at member
    exact List.mem_of_mem_drop member
  exact textual 0 oldest rfl

/-- The header always announces the bytes that follow.  They are the last
bytes logged exactly if the log still fits in the buffer, or if no query has
been made since the last byte was logged. -/
theorem dump_faithful_iff (calls : List DumpCall) :
    (queryDumpDebug (dumpAfter calls)).1.header.len = DLMC_HEADER_SIZE +
        (queryDumpDebug (dumpAfter calls)).1.body.length ∧
      ((queryDumpDebug (dumpAfter calls)).1.body =
          (logged calls).rtake DLMC_DUMP_SIZE ↔
        (logged calls).length < DLMC_DUMP_SIZE ∨
          queriedLast calls = false) := by
  refine ⟨queryDumpDebug_len _, ?_⟩
  rw [queryDumpDebug_body]
  obtain ⟨clean, holds, reached⟩ := dumpAfter_eq calls
  rw [reached]
  cases queried : queriedLast calls with
  | false => simp [holds.contents]
  | true =>
      rw [if_pos rfl]
      by_cases round : clean.wrapped = true
      · have long := holds.wrapped.mp round
        constructor
        · intro same
          exact (stale_ne holds (fun _ => logged_ne_zero) round same).elim
        · intro short
          rcases short with short | fresh
          · exact (Nat.not_lt.mpr long short).elim
          · cases fresh
      · have short : (logged calls).length < DLMC_DUMP_SIZE := by
          rw [← Nat.not_le, ← holds.wrapped]
          exact round
        rw [Ring.contents_poke, if_neg round, holds.contents]
        exact ⟨fun _ => .inl short, fun _ => rfl⟩

/-- One-byte messages fill the buffer, and it is read. -/
def fillAndQuery : List DumpCall :=
  List.replicate DLMC_DUMP_SIZE (.save [65]) ++ [.query]

theorem length_logged_replicate (count : Nat) :
    (logged (List.replicate count (.save [65]))).length = count := by
  induction count with
  | zero => rfl
  | succ count induction =>
      rw [List.replicate_succ', logged_save, List.length_append, induction]
      rfl

/-- The second of two queries in a row does not get the oldest byte. -/
theorem fillAndQuery_unfaithful :
    ¬∀ calls : List DumpCall,
      (queryDumpDebug (dumpAfter calls)).1.body =
        (logged calls).rtake DLMC_DUMP_SIZE := by
  intro claimed
  have faithful := claimed fillAndQuery
  rw [queryDumpDebug_body] at faithful
  obtain ⟨clean, holds, reached⟩ := dumpAfter_eq fillAndQuery
  rw [fillAndQuery, queriedLast_query, if_pos rfl] at reached
  rw [fillAndQuery, reached] at faithful
  have total : (logged fillAndQuery).length = DLMC_DUMP_SIZE := by
    rw [fillAndQuery, logged_query, length_logged_replicate]
  refine stale_ne holds (fun _ => logged_ne_zero) ?_ faithful
  rw [holds.wrapped, total]

end Dlm.Main
