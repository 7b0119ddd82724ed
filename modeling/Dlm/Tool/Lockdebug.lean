import Mathlib.Data.List.Induction
import Dlm.Lib.Bytes
import Dlm.Lib.Scan

/-!
# The summary of the locks

`do_lockdebug` counts the locks of one resource after the other in a
`struct rinfo` and adds it to the summary when the line of the next resource is
read.  Behind the last line nothing is added any more.  What is printed is not
modelled.
-/

namespace Dlm.Tool

def LOCK_LINE_MAX : Nat := 1024

def DLM_LKSTS_WAITING : Int32 := 1
def DLM_LKSTS_GRANTED : Int32 := 2
def DLM_LKSTS_CONVERT : Int32 := 3

section Scanning

/-- The conversions of the formats: `%s` into an array, `%d`, `%u` and `%llu`,
`%x`, and `%[0-9A-Fa-f ]` into an array. -/
inductive Conversion where
  | word (size : Nat)
  | decimal
  | hex
  | hexText (size : Nat)

inductive Scanned where
  | text (chars : List Char)
  | number (value : Int)
  deriving DecidableEq, Repr

def isHexDigit (char : Char) : Bool :=
  char.isDigit || ('a' ≤ char && char ≤ 'f') || ('A' ≤ char && char ≤ 'F')

def dropSign : List Char → List Char
  | '-' :: rest => rest
  | '+' :: rest => rest
  | text => text

def dropBase : List Char → List Char
  | '0' :: 'x' :: rest => rest
  | '0' :: 'X' :: rest => rest
  | text => text

/-- The longest run of such characters, which must not be empty. -/
def scanText (accepts : Char → Bool) (text : List Char) :
    Option (Scanned × List Char) :=
  match text.takeWhile accepts with
  | [] => none
  | chars => some (.text chars, text.dropWhile accepts)

/-- One conversion.  A hexadecimal number is only printed, and its digits are
kept for it. -/
def Conversion.scan : Conversion → List Char → Option (Scanned × List Char)
  | .word _, text => scanText (!·.isWhitespace) text
  | .decimal, text =>
      (Scan.scanInt text).map fun found => (.number found.1, found.2)
  | .hex, text => scanText isHexDigit (dropBase (dropSign text))
  | .hexText _, text =>
      scanText (fun char => isHexDigit char || char == ' ') text

/-- There is room for the text and its terminator. -/
def Conversion.holds : Conversion → Scanned → Bool
  | .word size, .text chars => chars.length < size
  | .hexText size, .text chars => chars.length < size
  | _, _ => true

/-- The values that `sscanf` stores; `none` if it leaves an array. -/
def sscanf : List Conversion → List Char → Option (List Scanned)
  | [], _ => some []
  | conversion :: later, text =>
      match conversion.scan (text.dropWhile Char.isWhitespace) with
      | none => some []
      | some (scanned, rest) =>
          if conversion.holds scanned then
            (sscanf later rest).map (scanned :: ·)
          else none

/-- The characters of a string in memory. -/
def chars (line : List UInt8) : List Char :=
  (cString line).map fun byte => Char.ofNat byte.toNat

end Scanning

structure Rinfo where
  namelen : Int32
  nodeid : Int32
  lvb : Bool
  lkbCount : UInt32
  lkbGranted : UInt32
  lkbConvert : UInt32
  lkbWaiting : UInt32
  lkbLookup : UInt32
  lkbWaitMsg : UInt32
  lkbMasterCopy : UInt32
  lkbLocalCopy : UInt32
  lkbProcessCopy : UInt32
  deriving DecidableEq, Repr

structure Summary where
  rsbTotal : UInt32
  rsbWithLvb : UInt32
  rsbNoLocks : UInt32
  rsbLookup : UInt32
  rsbMaster : UInt32
  rsbLocal : UInt32
  rsbNodeidError : UInt32
  lkbCount : UInt32
  lkbGranted : UInt32
  lkbConvert : UInt32
  lkbWaiting : UInt32
  lkbLookup : UInt32
  lkbWaitMsg : UInt32
  lkbMasterCopy : UInt32
  lkbLocalCopy : UInt32
  lkbProcessCopy : UInt32
  deriving DecidableEq, Repr

/-- A `struct rinfo` of zeros. -/
def Rinfo.zero : Rinfo :=
  { namelen := 0
    nodeid := 0
    lvb := false
    lkbCount := 0
    lkbGranted := 0
    lkbConvert := 0
    lkbWaiting := 0
    lkbLookup := 0
    lkbWaitMsg := 0
    lkbMasterCopy := 0
    lkbLocalCopy := 0
    lkbProcessCopy := 0 }

/-- A `struct summary` of zeros. -/
def Summary.zero : Summary :=
  { rsbTotal := 0
    rsbWithLvb := 0
    rsbNoLocks := 0
    rsbLookup := 0
    rsbMaster := 0
    rsbLocal := 0
    rsbNodeidError := 0
    lkbCount := 0
    lkbGranted := 0
    lkbConvert := 0
    lkbWaiting := 0
    lkbLookup := 0
    lkbWaitMsg := 0
    lkbMasterCopy := 0
    lkbLocalCopy := 0
    lkbProcessCopy := 0 }

def clearRinfo : Rinfo :=
  { Rinfo.zero with nodeid := -9 }

def countRinfo (s : Summary) (ri : Rinfo) : Summary :=
  if ri.namelen = 0 then s
  else
    let s := { s with rsbTotal := s.rsbTotal + 1 }
    let s := if ri.lvb then { s with rsbWithLvb := s.rsbWithLvb + 1 } else s
    let s :=
      if ri.lkbCount = 0 then { s with rsbNoLocks := s.rsbNoLocks + 1 } else s
    let s :=
      if ri.nodeid = 0 then { s with rsbMaster := s.rsbMaster + 1 }
      else if ri.nodeid = -1 then { s with rsbLookup := s.rsbLookup + 1 }
      else if 0 < ri.nodeid then { s with rsbLocal := s.rsbLocal + 1 }
      else { s with rsbNodeidError := s.rsbNodeidError + 1 }
    { s with
      lkbCount := s.lkbCount + ri.lkbCount
      lkbGranted := s.lkbGranted + ri.lkbGranted
      lkbConvert := s.lkbConvert + ri.lkbConvert
      lkbWaiting := s.lkbWaiting + ri.lkbWaiting
      lkbLookup := s.lkbLookup + ri.lkbLookup
      lkbWaitMsg := s.lkbWaitMsg + ri.lkbWaitMsg
      lkbMasterCopy := s.lkbMasterCopy + ri.lkbMasterCopy
      lkbLocalCopy := s.lkbLocalCopy + ri.lkbLocalCopy
      lkbProcessCopy := s.lkbProcessCopy + ri.lkbProcessCopy }

/-- What `print_rsb` keeps of its line. -/
structure RsbFields where
  nodeid : Int32
  namelen : Int32
  deriving DecidableEq, Repr

/-- The `sscanf` of `print_rsb`, and the `strcat` behind it; the inner `none`
if not all ten values are read, the outer one if an array is left. -/
def scanRsb (line : List UInt8) : Option (Option RsbFields) :=
  match sscanf
      [.word 4, .word 64, .decimal, .word 64, .decimal, .decimal, .decimal,
        .decimal, .decimal, .word 4] (chars line) with
  | none => none
  | some [_, .text addr, .number nodeid, _, _, _, _, _, .number namelen, _] =>
      if newline ∈ line ∧ 64 ≤ addr.length + 1 then none
      else
        some (some
          { nodeid := Int32.ofInt nodeid
            namelen := Int32.ofInt namelen })
  | some _ => some none

def printRsb (line : List UInt8) (ri : Rinfo) : Option Rinfo :=
  match scanRsb line with
  | none => none
  | some none => some ri
  | some (some fields) =>
      some { ri with nodeid := fields.nodeid, namelen := fields.namelen }

/-- The loop of `print_lvb`; `false` if it leaves the array. -/
def lvbLoop (digits : Int32) : Int32 → List Char → Bool
  | _, [] => false
  | c, char :: later =>
      let c := if char = ' ' then c else c + 1
      if c = digits then true else lvbLoop digits c later

/-- Whether `print_lvb` stays in its arrays. -/
def printLvb (line : List UInt8) : Bool :=
  match sscanf [.word 4, .decimal, .decimal, .hexText 1024] (chars line) with
  | none => false
  | some [_, _, .number lvblen, .text lvb] =>
      lvbLoop (Int32.ofInt lvblen * 2) 0
        (lvb ++ List.replicate (1024 - lvb.length) (Char.ofNat 0))
  | some _ => true

/-- What `print_lkb` counts of its line. -/
structure LkbFields where
  nodeid : Int32
  status : Int32
  rsbLookup : Int32
  waitType : Int32
  deriving DecidableEq, Repr

/-- The `sscanf` of `print_lkb`; `none` if not all values are read, as the
source then goes on with what is on the stack. -/
def scanLkb (line : List UInt8) : Option LkbFields :=
  match sscanf
      [.word 4, .hex, .decimal, .hex, .decimal, .decimal, .hex, .hex, .decimal,
        .decimal, .decimal, .decimal, .decimal, .decimal, .decimal, .decimal,
        .decimal] (chars line) with
  | some [_, _, .number nodeid, _, _, _, _, _, .number status, _, _, _,
      .number rsbLookup, .number waitType, _, _, _] =>
      some
        { nodeid := Int32.ofInt nodeid
          status := Int32.ofInt status
          rsbLookup := Int32.ofInt rsbLookup
          waitType := Int32.ofInt waitType }
  | _ => none

/-- The counters after `print_lkb`. -/
def countLkb (ri : Rinfo) (lkb : LkbFields) : Rinfo :=
  let ri := { ri with lkbCount := ri.lkbCount + 1 }
  let ri :=
    if lkb.status = DLM_LKSTS_GRANTED then
      { ri with lkbGranted := ri.lkbGranted + 1 }
    else ri
  let ri :=
    if lkb.status = DLM_LKSTS_CONVERT then
      { ri with lkbConvert := ri.lkbConvert + 1 }
    else ri
  let ri :=
    if lkb.status = DLM_LKSTS_WAITING then
      { ri with lkbWaiting := ri.lkbWaiting + 1 }
    else ri
  let ri :=
    if lkb.rsbLookup ≠ 0 then { ri with lkbLookup := ri.lkbLookup + 1 }
    else ri
  let ri :=
    if lkb.waitType ≠ 0 then { ri with lkbWaitMsg := ri.lkbWaitMsg + 1 }
    else ri
  if ri.nodeid = 0 then
    if lkb.nodeid ≠ 0 then { ri with lkbMasterCopy := ri.lkbMasterCopy + 1 }
    else { ri with lkbLocalCopy := ri.lkbLocalCopy + 1 }
  else { ri with lkbProcessCopy := ri.lkbProcessCopy + 1 }

def printLkb (line : List UInt8) (ri : Rinfo) : Option Rinfo :=
  (scanLkb line).map (countLkb ri)

/-- The variables `summary` and `info` of `do_lockdebug`. -/
structure Lockdebug where
  summary : Summary
  info : Rinfo
  deriving DecidableEq, Repr

def Lockdebug.begin : Lockdebug :=
  { summary := .zero, info := .zero }

def versionTag : List UInt8 := [118, 101, 114, 115, 105, 111, 110]
def rsbTag : List UInt8 := [114, 115, 98]
def lvbTag : List UInt8 := [108, 118, 98]
def lkbTag : List UInt8 := [108, 107, 98]

/-- The body of the loop of `do_lockdebug` for the `_all` file. -/
def lockdebugLine (state : Lockdebug) (line : List UInt8) :
    Option Lockdebug :=
  if strncmpEq line versionTag 7 then some state
  else if strncmpEq line rsbTag 3 then
    (printRsb line clearRinfo).map fun info =>
      { summary := countRinfo state.summary state.info, info := info }
  else if strncmpEq line lvbTag 3 then
    if printLvb line then
      some { state with info := { state.info with lvb := true } }
    else none
  else if strncmpEq line lkbTag 3 then
    (printLkb line state.info).map fun info => { state with info := info }
  else some state

theorem length_fgets_pos {stream : List UInt8} (more : stream ≠ []) :
    0 < (fgets LOCK_LINE_MAX stream).length := by
  obtain ⟨byte, later, rfl⟩ := List.exists_cons_of_ne_nil more
  rw [fgets]
  split
  · simp
  · simp [LOCK_LINE_MAX]

/-- The lines that `fgets` returns until the end of the file. -/
def fgetsLines (stream : List UInt8) : List (List UInt8) :=
  if stream = [] then []
  else
    fgets LOCK_LINE_MAX stream ::
      fgetsLines (stream.drop (fgets LOCK_LINE_MAX stream).length)
termination_by stream.length
decreasing_by
  rename_i more
  have read := length_fgets_pos more
  have some_ := List.length_pos_iff.mpr more
  rw [List.length_drop]
  omega

/-- The summary after `do_lockdebug`, with the contents of the two files if
they can be opened; `none` if the source leaves an array, reads what it has not
written or cannot open a file.  The older file is only copied to the output. -/
def doLockdebug (allFile oldFile : Option (List UInt8)) : Option Summary :=
  match allFile, oldFile with
  | some file, _ =>
      ((fgetsLines file).foldlM lockdebugLine .begin).map Lockdebug.summary
  | none, some _ => some .zero
  | none, none => none

section Streams

/-- The text of a line of the file. -/
structure Line where
  text : List UInt8
  plain : newline ∉ text
  short : text.length + 1 < LOCK_LINE_MAX

def Line.bytes (line : Line) : List UInt8 :=
  line.text ++ [newline]

structure VersionLine extends Line where
  begins : versionTag <+: text

/-- A line for a resource with a name. -/
structure RsbLine extends Line where
  begins : rsbTag <+: text
  fields : RsbFields
  scans : scanRsb toLine.bytes = some (some fields)
  named : 1 ≤ fields.namelen

structure LvbLine extends Line where
  begins : lvbTag <+: text
  prints : printLvb toLine.bytes = true

structure LkbLine extends Line where
  begins : lkbTag <+: text
  fields : LkbFields
  scans : scanLkb toLine.bytes = some fields

inductive Entry where
  | lvb (line : LvbLine)
  | lkb (line : LkbLine)

def Entry.line : Entry → Line
  | .lvb line => line.toLine
  | .lkb line => line.toLine

/-- The lines of one resource. -/
structure ResourceLines where
  rsb : RsbLine
  entries : List Entry

def ResourceLines.lines (resource : ResourceLines) : List Line :=
  resource.rsb.toLine :: resource.entries.map Entry.line

/-- A well formed file. -/
structure Stream where
  version : VersionLine
  resources : List ResourceLines

def Stream.lines (stream : Stream) : List Line :=
  stream.version.toLine :: stream.resources.flatMap ResourceLines.lines

def Stream.bytes (stream : Stream) : List UInt8 :=
  stream.lines.flatMap Line.bytes

/-- What the `lkb` lines among some lines say. -/
def entryLkbs (entries : List Entry) : List LkbFields :=
  entries.filterMap fun
    | .lvb _ => none
    | .lkb line => some line.fields

def lkbs (resources : List ResourceLines) : List LkbFields :=
  resources.flatMap fun resource => entryLkbs resource.entries

/-- The status is one of the three that are counted. -/
def LkbFields.counted (lkb : LkbFields) : Bool :=
  lkb.status == DLM_LKSTS_GRANTED || lkb.status == DLM_LKSTS_CONVERT ||
    lkb.status == DLM_LKSTS_WAITING

/-- The summary counts all the resources and their locks. -/
structure Summary.Complete (summary : Summary) (stream : Stream) : Prop where
  rsbTotal : summary.rsbTotal.toNat = stream.resources.length
  lkbCount : summary.lkbCount.toNat = (lkbs stream.resources).length
  statuses : summary.lkbGranted.toNat + summary.lkbConvert.toNat +
      summary.lkbWaiting.toNat =
    (lkbs stream.resources).countP LkbFields.counted

end Streams

section Lines

variable {tag : List UInt8}

theorem Line.bytes_begins {line : Line} (begins : tag <+: line.text) :
    tag <+: line.bytes :=
  begins.trans (List.prefix_append _ _)

theorem lockdebugLine_version (state : Lockdebug) (line : VersionLine) :
    lockdebugLine state line.bytes = some state := by
  have version : strncmpEq line.bytes versionTag 7 = true :=
    strncmpEq_of_begins (Line.bytes_begins line.begins)
  rw [lockdebugLine, if_pos version]

/-- The counters behind the line of a resource. -/
def RsbFields.info (fields : RsbFields) : Rinfo :=
  { clearRinfo with nodeid := fields.nodeid, namelen := fields.namelen }

theorem lockdebugLine_rsb (state : Lockdebug) (line : RsbLine) :
    lockdebugLine state line.bytes =
      some
        { summary := countRinfo state.summary state.info
          info := line.fields.info } := by
  have begins := Line.bytes_begins line.begins
  have version : ¬ strncmpEq line.bytes versionTag 7 = true :=
    not_strncmpEq_of_begins begins (by decide) (by decide)
  have rsb : strncmpEq line.bytes rsbTag 3 = true :=
    strncmpEq_of_begins begins
  rw [lockdebugLine, if_neg version, if_pos rsb, printRsb, line.scans]
  rfl

/-- What a line behind that of the resource adds to the counters. -/
def Entry.count (ri : Rinfo) : Entry → Rinfo
  | .lvb _ => { ri with lvb := true }
  | .lkb line => countLkb ri line.fields

theorem lockdebugLine_entry (state : Lockdebug) (entry : Entry) :
    lockdebugLine state entry.line.bytes =
      some { state with info := entry.count state.info } := by
  cases entry with
  | lvb line =>
      have begins := Line.bytes_begins line.begins
      have version : ¬ strncmpEq line.bytes versionTag 7 = true :=
        not_strncmpEq_of_begins begins (by decide) (by decide)
      have rsb : ¬ strncmpEq line.bytes rsbTag 3 = true :=
        not_strncmpEq_of_begins begins (by decide) (by decide)
      have lvb : strncmpEq line.bytes lvbTag 3 = true :=
        strncmpEq_of_begins begins
      rw [Entry.line, lockdebugLine, if_neg version, if_neg rsb, if_pos lvb,
        if_pos line.prints]
      rfl
  | lkb line =>
      have begins := Line.bytes_begins line.begins
      have version : ¬ strncmpEq line.bytes versionTag 7 = true :=
        not_strncmpEq_of_begins begins (by decide) (by decide)
      have rsb : ¬ strncmpEq line.bytes rsbTag 3 = true :=
        not_strncmpEq_of_begins begins (by decide) (by decide)
      have lvb : ¬ strncmpEq line.bytes lvbTag 3 = true :=
        not_strncmpEq_of_begins begins (by decide) (by decide)
      have lkb : strncmpEq line.bytes lkbTag 3 = true :=
        strncmpEq_of_begins begins
      rw [Entry.line, lockdebugLine, if_neg version, if_neg rsb, if_neg lvb,
        if_pos lkb, printLkb, line.scans]
      rfl

/-- The lines are read one by one. -/
theorem fgetsLines_flatMap (lines : List Line) :
    fgetsLines (lines.flatMap Line.bytes) = lines.map Line.bytes := by
  induction lines with
  | nil => rw [List.flatMap_nil, fgetsLines, if_pos rfl, List.map_nil]
  | cons line later induction =>
      have split : (line :: later).flatMap Line.bytes =
          line.text ++ newline :: later.flatMap Line.bytes := by
        simp [Line.bytes]
      have short : line.text.length + 1 ≤ LOCK_LINE_MAX - 1 :=
        Nat.le_sub_one_of_lt line.short
      have read : fgets LOCK_LINE_MAX ((line :: later).flatMap Line.bytes) =
          line.bytes := by
        rw [split, fgets_line line.plain short]
        rfl
      have more : ((line :: later).flatMap Line.bytes) ≠ [] := by
        rw [split]
        simp
      have rest : ((line :: later).flatMap Line.bytes).drop
          line.bytes.length = later.flatMap Line.bytes := by
        rw [List.flatMap_cons, List.drop_left]
      rw [fgetsLines, if_neg more, read, rest, induction, List.map_cons]

end Lines

section Loop

/-- The counters of a resource. -/
def ResourceLines.info (resource : ResourceLines) : Rinfo :=
  resource.entries.foldl Entry.count resource.rsb.fields.info

/-- What the lines of a resource do. -/
def Lockdebug.next (state : Lockdebug) (resource : ResourceLines) :
    Lockdebug :=
  { summary := countRinfo state.summary state.info, info := resource.info }

/-- The summary with the counters that have not been added yet. -/
def Lockdebug.flushed (state : Lockdebug) : Summary :=
  countRinfo state.summary state.info

/-- The sum of the counters of some resources. -/
def tally (resources : List ResourceLines) : Summary :=
  resources.foldl (fun s resource => countRinfo s resource.info) .zero

theorem foldlM_entries (state : Lockdebug) (entries : List Entry) :
    (entries.map fun entry => entry.line.bytes).foldlM lockdebugLine state =
      some { state with info := entries.foldl Entry.count state.info } := by
  induction entries generalizing state with
  | nil => rfl
  | cons entry later induction =>
      rw [List.map_cons, List.foldlM_cons, lockdebugLine_entry,
        Option.bind_eq_bind, Option.bind_some, induction]
      rfl

theorem foldlM_resource (state : Lockdebug) (resource : ResourceLines) :
    (resource.lines.map Line.bytes).foldlM lockdebugLine state =
      some (state.next resource) := by
  rw [ResourceLines.lines, List.map_cons, List.foldlM_cons,
    lockdebugLine_rsb, Option.bind_eq_bind, Option.bind_some, List.map_map]
  exact foldlM_entries _ resource.entries

theorem foldlM_resources (state : Lockdebug)
    (resources : List ResourceLines) :
    ((resources.flatMap ResourceLines.lines).map Line.bytes).foldlM
        lockdebugLine state =
      some (resources.foldl Lockdebug.next state) := by
  induction resources generalizing state with
  | nil => rfl
  | cons resource later induction =>
      rw [List.flatMap_cons, List.map_append, List.foldlM_append,
        foldlM_resource, Option.bind_eq_bind, Option.bind_some, induction]
      rfl

theorem flushed_foldl (resources : List ResourceLines) :
    (resources.foldl Lockdebug.next .begin).flushed = tally resources :=
  (List.foldl_hom Lockdebug.flushed fun _ _ => rfl).symm

/-- All resources but the last one are in the summary. -/
theorem doLockdebug_stream (stream : Stream)
    (oldFile : Option (List UInt8)) :
    doLockdebug (some stream.bytes) oldFile =
      some (tally stream.resources.dropLast) := by
  have read : (fgetsLines stream.bytes).foldlM lockdebugLine .begin =
      some (stream.resources.foldl Lockdebug.next .begin) := by
    rw [Stream.bytes, fgetsLines_flatMap, Stream.lines, List.map_cons,
      List.foldlM_cons, lockdebugLine_version, Option.bind_eq_bind,
      Option.bind_some, foldlM_resources]
  rw [doLockdebug, read, Option.map_some]
  rcases List.eq_nil_or_concat stream.resources with none_ | ⟨front, last, all⟩
  · rw [none_]
    rfl
  · rw [all, List.concat_eq_append, List.dropLast_concat, List.foldl_append]
    exact congrArg some (flushed_foldl front)

end Loop

section Counts

/-- A counter of the summary and the counter of a resource that is added to
it, which counts the locks of a kind. -/
structure CountsKind (total : Summary → UInt32) (counter : Rinfo → UInt32)
    (kind : LkbFields → Bool) : Prop where
  zero : total .zero = 0
  clear : ∀ fields : RsbFields, counter fields.info = 0
  added : ∀ s ri, ri.namelen ≠ 0 →
    total (countRinfo s ri) = total s + counter ri
  lvb : ∀ ri : Rinfo, counter { ri with lvb := true } = counter ri
  lkb : ∀ ri lkb, counter (countLkb ri lkb) =
    if kind lkb then counter ri + 1 else counter ri

theorem countLkb_spec (ri : Rinfo) (lkb : LkbFields) :
    (countLkb ri lkb).namelen = ri.namelen ∧
      (countLkb ri lkb).lkbCount = ri.lkbCount + 1 ∧
      (countLkb ri lkb).lkbGranted =
        (if lkb.status == DLM_LKSTS_GRANTED then ri.lkbGranted + 1
          else ri.lkbGranted) ∧
      (countLkb ri lkb).lkbConvert =
        (if lkb.status == DLM_LKSTS_CONVERT then ri.lkbConvert + 1
          else ri.lkbConvert) ∧
      (countLkb ri lkb).lkbWaiting =
        (if lkb.status == DLM_LKSTS_WAITING then ri.lkbWaiting + 1
          else ri.lkbWaiting) := by
  simp only [countLkb, apply_ite Rinfo.namelen, apply_ite Rinfo.lkbCount,
    apply_ite Rinfo.lkbGranted, apply_ite Rinfo.lkbConvert,
    apply_ite Rinfo.lkbWaiting, ite_self, beq_iff_eq, and_self]

theorem countRinfo_spec {ri : Rinfo} (named : ri.namelen ≠ 0)
    (s : Summary) :
    (countRinfo s ri).rsbTotal = s.rsbTotal + 1 ∧
      (countRinfo s ri).lkbCount = s.lkbCount + ri.lkbCount ∧
      (countRinfo s ri).lkbGranted = s.lkbGranted + ri.lkbGranted ∧
      (countRinfo s ri).lkbConvert = s.lkbConvert + ri.lkbConvert ∧
      (countRinfo s ri).lkbWaiting = s.lkbWaiting + ri.lkbWaiting := by
  simp only [countRinfo, if_neg named, apply_ite Summary.rsbTotal,
    apply_ite Summary.lkbCount, apply_ite Summary.lkbGranted,
    apply_ite Summary.lkbConvert, apply_ite Summary.lkbWaiting, ite_self,
    and_self]

theorem info_namelen (resource : ResourceLines) :
    resource.info.namelen ≠ 0 := by
  have kept (entries : List Entry) (ri : Rinfo) :
      (entries.foldl Entry.count ri).namelen = ri.namelen := by
    induction entries generalizing ri with
    | nil => rfl
    | cons entry later induction =>
        rw [List.foldl_cons, induction]
        cases entry with
        | lvb line => rfl
        | lkb line => exact (countLkb_spec ri line.fields).1
  rw [ResourceLines.info, kept]
  intro zero
  have named := resource.rsb.named
  have namelen : resource.rsb.fields.namelen = 0 := zero
  rw [namelen] at named
  exact absurd named (by decide)

variable {total : Summary → UInt32} {counter : Rinfo → UInt32}
  {kind : LkbFields → Bool}

theorem CountsKind.entries (counts : CountsKind total counter kind)
    (ri : Rinfo) (entries : List Entry) :
    counter (entries.foldl Entry.count ri) =
      counter ri + UInt32.ofNat ((entryLkbs entries).countP kind) := by
  induction entries generalizing ri with
  | nil => exact (UInt32.add_zero _).symm
  | cons entry later induction =>
      rw [List.foldl_cons, induction]
      cases entry with
      | lvb line =>
          rw [Entry.count, counts.lvb]
          rfl
      | lkb line =>
          have first : entryLkbs (.lkb line :: later) =
              line.fields :: entryLkbs later := rfl
          rw [Entry.count, counts.lkb, first, List.countP_cons]
          split
          · rw [UInt32.ofNat_add, UInt32.add_assoc, UInt32.add_comm 1]
            rfl
          · rw [Nat.add_zero]

theorem CountsKind.resources (counts : CountsKind total counter kind)
    (s : Summary) (resources : List ResourceLines) :
    total (resources.foldl (fun s resource => countRinfo s resource.info) s) =
      total s + UInt32.ofNat ((lkbs resources).countP kind) := by
  induction resources generalizing s with
  | nil => exact (UInt32.add_zero _).symm
  | cons resource later induction =>
      have first : lkbs (resource :: later) =
          entryLkbs resource.entries ++ lkbs later := rfl
      rw [List.foldl_cons, induction, counts.added _ _ (info_namelen resource),
        ResourceLines.info, counts.entries, counts.clear, UInt32.zero_add,
        first, List.countP_append, UInt32.ofNat_add, UInt32.add_assoc]

theorem CountsKind.tally (counts : CountsKind total counter kind)
    (resources : List ResourceLines) :
    total (tally resources) =
      UInt32.ofNat ((lkbs resources).countP kind) := by
  rw [Tool.tally, counts.resources, counts.zero, UInt32.zero_add]

theorem countsKind_lkbCount :
    CountsKind Summary.lkbCount Rinfo.lkbCount fun _ => true where
  zero := rfl
  clear _ := rfl
  added s _ named := (countRinfo_spec named s).2.1
  lvb _ := rfl
  lkb ri lkb := (countLkb_spec ri lkb).2.1

theorem countsKind_granted :
    CountsKind Summary.lkbGranted Rinfo.lkbGranted
      (·.status == DLM_LKSTS_GRANTED) where
  zero := rfl
  clear _ := rfl
  added s _ named := (countRinfo_spec named s).2.2.1
  lvb _ := rfl
  lkb ri lkb := (countLkb_spec ri lkb).2.2.1

theorem countsKind_convert :
    CountsKind Summary.lkbConvert Rinfo.lkbConvert
      (·.status == DLM_LKSTS_CONVERT) where
  zero := rfl
  clear _ := rfl
  added s _ named := (countRinfo_spec named s).2.2.2.1
  lvb _ := rfl
  lkb ri lkb := (countLkb_spec ri lkb).2.2.2.1

theorem countsKind_waiting :
    CountsKind Summary.lkbWaiting Rinfo.lkbWaiting
      (·.status == DLM_LKSTS_WAITING) where
  zero := rfl
  clear _ := rfl
  added s _ named := (countRinfo_spec named s).2.2.2.2
  lvb _ := rfl
  lkb ri lkb := (countLkb_spec ri lkb).2.2.2.2

theorem tally_rsbTotal (resources : List ResourceLines) :
    (tally resources).rsbTotal = UInt32.ofNat resources.length := by
  induction resources using List.reverseRecOn with
  | nil => rfl
  | append_singleton front last induction =>
      have split : tally (front ++ [last]) =
          countRinfo (tally front) last.info := by
        rw [tally, List.foldl_append, List.foldl_cons, List.foldl_nil, tally]
      rw [split, (countRinfo_spec (info_namelen last) _).1, induction,
        List.length_append, UInt32.ofNat_add]
      rfl

end Counts

/-- The counters of a summary of some resources, modulo the size of an
`unsigned int`. -/
structure Summary.Counts (summary : Summary)
    (resources : List ResourceLines) : Prop where
  rsbTotal : summary.rsbTotal = UInt32.ofNat resources.length
  lkbCount : summary.lkbCount = UInt32.ofNat (lkbs resources).length
  granted : summary.lkbGranted = UInt32.ofNat
    ((lkbs resources).countP (·.status == DLM_LKSTS_GRANTED))
  convert : summary.lkbConvert = UInt32.ofNat
    ((lkbs resources).countP (·.status == DLM_LKSTS_CONVERT))
  waiting : summary.lkbWaiting = UInt32.ofNat
    ((lkbs resources).countP (·.status == DLM_LKSTS_WAITING))

theorem tally_counts (resources : List ResourceLines) :
    (tally resources).Counts resources where
  rsbTotal := tally_rsbTotal resources
  lkbCount := by
    rw [countsKind_lkbCount.tally, List.countP_true]
  granted := countsKind_granted.tally resources
  convert := countsKind_convert.tally resources
  waiting := countsKind_waiting.tally resources

/-- The summary is of all resources but the last one, and so it counts
everything only if there is none. -/
theorem lockdebug_complete_iff (stream : Stream)
    (oldFile : Option (List UInt8)) :
    ∃ summary, doLockdebug (some stream.bytes) oldFile = some summary ∧
      summary.Counts stream.resources.dropLast ∧
      (summary.Complete stream ↔ stream.resources = []) := by
  have counts := tally_counts stream.resources.dropLast
  refine ⟨_, doLockdebug_stream stream oldFile, counts, ?_⟩
  constructor
  · intro complete
    have total := complete.rsbTotal
    rw [counts.rsbTotal, List.length_dropLast, UInt32.toNat_ofNat'] at total
    have reduced := Nat.mod_le (stream.resources.length - 1) (2 ^ 32)
    apply List.eq_nil_of_length_eq_zero
    omega
  · intro none_
    rw [none_]
    refine ⟨?_, ?_, ?_⟩
    all_goals
      rw [none_]
      rfl

section Single

def ascii (text : String) : List UInt8 :=
  text.toList.map fun char => UInt8.ofNat char.toNat

def singleVersion : VersionLine :=
  { text := ascii "version rsb 1.1 lvb 1.1 lkb 1.1"
    plain := by decide +kernel
    short := by decide +kernel
    begins := by decide +kernel }

def singleRsb : RsbLine :=
  { text := ascii "rsb ffff88003a5f0000 0 0 0 0 0 0 4 str test"
    plain := by decide +kernel
    short := by decide +kernel
    begins := by decide +kernel
    fields := { nodeid := 0, namelen := 4 }
    scans := by decide +kernel
    named := by decide }

def singleLvb : LvbLine :=
  { text := ascii "lvb 1 4 00 01 02 0a"
    plain := by decide +kernel
    short := by decide +kernel
    begins := by decide +kernel
    prints := by decide +kernel }

def singleLkb : LkbLine :=
  { text := ascii "lkb 10001 0 0 4711 0 0 0 2 5 -1 0 0 0 1 100 0"
    plain := by decide +kernel
    short := by decide +kernel
    begins := by decide +kernel
    fields := { nodeid := 0, status := 2, rsbLookup := 0, waitType := 0 }
    scans := by decide +kernel }

/-- One resource with a value block and a granted lock. -/
def single : Stream :=
  { version := singleVersion
    resources :=
      [{ rsb := singleRsb, entries := [.lvb singleLvb, .lkb singleLkb] }] }

end Single

/-- Of a single resource nothing is counted. -/
theorem single_uncounted :
    doLockdebug (some single.bytes) none = some .zero ∧
      ¬ Summary.zero.Complete single := by
  refine ⟨doLockdebug_stream single none, ?_⟩
  intro complete
  exact absurd complete.rsbTotal (by decide)

end Dlm.Tool
