import Dlm.Lib.Bytes

/-!
# The names of resources

A resource name goes from the debugfs file through `parse_r_name` into the
array `r->name`, from there as a string into the id of a checkpoint section,
and is looked up on another node by its bytes and its length.  The array has no
room for a terminator behind a name of the greatest length, and the file is
read by lines.
-/

namespace Dlm.Deadlock

def DLM_RESNAME_MAXLEN : Nat := 64
def LOCK_LINE_MAX : Nat := 1024

/-- The size of the array `r_name`. -/
def R_NAME_SIZE : Nat := 65

def quote : UInt8 := 34

/-- The numbers in front of the name in a line of the debugfs file. -/
structure LineFields where
  text : List UInt8
  plain : ∀ byte ∈ text, byte ≠ quote ∧ byte ≠ newline
  short : text.length ≤ 300

/-- The line that the kernel prints for a lock on the resource. -/
def debugfsLine (fields : LineFields) (name : List UInt8) : List UInt8 :=
  fields.text ++ 32 :: quote :: (name ++ [quote, newline])

/-- The loop of `parse_r_name`, which looks for the quotes and for nothing
else; `none` if it leaves the buffer. -/
def parseRName : Bool → List UInt8 → Option (List UInt8)
  | _, [] => none
  | begun, byte :: later =>
      if byte = quote then
        if begun then some [] else parseRName true later
      else if begun then (parseRName true later).map (byte :: ·)
      else parseRName begun later

/-- The array `r_name` after a line has been read; `stale` is what the line
buffer holds behind the terminator.  `none` if `parse_r_name` leaves the line
buffer or the array. -/
def readRName (fields : LineFields) (stale name : List UInt8) :
    Option (List UInt8) :=
  let line := fgets LOCK_LINE_MAX (debugfsLine fields name)
  match parseRName false (line ++ 0 :: stale) with
  | none => none
  | some text =>
      if text.length ≤ R_NAME_SIZE then
        some (text ++ List.replicate (R_NAME_SIZE - text.length) 0)
      else none

/-- The name of a `struct dlm_rsb`: the array and the length. -/
structure RsbName where
  name : List UInt8
  len : Nat
  deriving DecidableEq, Repr

/-- The resource that `get_resource` allocates. -/
def newRsb (name : List UInt8) (len : Nat) : RsbName :=
  { name :=
      (name.take len ++
        List.replicate (DLM_RESNAME_MAXLEN - len) 0).take DLM_RESNAME_MAXLEN
    len := len }

/-- `get_resource`: the list of resources and the one it returns. -/
def getRsb (resources : List RsbName) (name : List UInt8) (len : Nat) :
    List RsbName × RsbName :=
  match resources.find? fun r => r.len == len && strncmpEq r.name name len with
  | some r => (resources, r)
  | none => (newRsb name len :: resources, newRsb name len)

/-- The memory of a resource from its name on: the array and the length. -/
def rsbMemory (host : Endian) (r : RsbName) : List UInt8 :=
  r.name ++ host.store 4 r.len

/-- A section id: the memory at its address and its length. -/
structure SectionIdBytes where
  id : List UInt8
  idLen : Nat

/-- The section id that `write_checkpoint` uses; `stack` is what lies behind
its buffer in memory. -/
def sectionIdOf (host : Endian) (stack : List UInt8) (r : RsbName) :
    SectionIdBytes :=
  let text := cString (rsbMemory host r)
  let kept := text.take (DLM_RESNAME_MAXLEN - 1)
  { id := kept ++ List.replicate (DLM_RESNAME_MAXLEN - kept.length) 0 ++ stack
    idLen := text.length + 1 }

/-- The lookup of `read_checkpoint_locks`. -/
def lookupSection (resources : List RsbName) (section_ : SectionIdBytes) :
    List RsbName × RsbName :=
  getRsb resources section_.id (section_.idLen - 1)

/-- What is around the name on its way: on the writing node the byte order,
the stack, the fields of the line and the stale bytes of the line buffer, on
the reading node the fields, the stale bytes and the resources it has. -/
structure Passage where
  host : Endian
  stack : List UInt8
  writerFields : LineFields
  writerStale : List UInt8
  readerFields : LineFields
  readerStale : List UInt8
  resources : List RsbName

/-- Both nodes read the name from debugfs, and the section that one of them
writes is resolved by the other to the resource it already has. -/
def Resolves (passage : Passage) (name : List UInt8) : Prop :=
  ∃ written known,
    readRName passage.writerFields passage.writerStale name = some written ∧
      readRName passage.readerFields passage.readerStale name = some known ∧
      lookupSection (getRsb passage.resources known name.length).1
          (sectionIdOf passage.host passage.stack
            (newRsb written name.length)) =
        getRsb passage.resources known name.length

/-- The name can be read from the file: it has no newline, or only one at its
end, and what the line buffer holds from earlier lines has a quote early
enough. -/
def Readable (stale name : List UInt8) : Prop :=
  newline ∉ name ∨
    ∃ front, name = front ++ [newline] ∧ newline ∉ front ∧ quote ∈ stale ∧
      name.length + 1 + (stale.takeWhile (· != quote)).length ≤ R_NAME_SIZE

section Parse

variable {fields : LineFields} {stale name front back : List UInt8}

theorem parseRName_skip (plain : quote ∉ front) :
    parseRName false (front ++ back) = parseRName false back := by
  induction front with
  | nil => rfl
  | cons byte later induction =>
      rw [List.mem_cons, not_or] at plain
      rw [List.cons_append, parseRName, if_neg (Ne.symm plain.1)]
      exact induction plain.2

theorem parseRName_text (plain : quote ∉ front) :
    parseRName true (front ++ quote :: back) = some front := by
  induction front with
  | nil => simp [parseRName]
  | cons byte later induction =>
      rw [List.mem_cons, not_or] at plain
      rw [List.cons_append, parseRName, if_neg (Ne.symm plain.1),
        induction plain.2]
      rfl

theorem parseRName_none (plain : quote ∉ front) :
    parseRName true front = none := by
  induction front with
  | nil => rfl
  | cons byte later induction =>
      rw [List.mem_cons, not_or] at plain
      rw [parseRName, if_neg (Ne.symm plain.1), induction plain.2]
      rfl

/-- The name begins behind the first quote. -/
theorem parseRName_fields (fields : LineFields) (rest : List UInt8) :
    parseRName false (fields.text ++ 32 :: quote :: rest) =
      parseRName true rest := by
  rw [parseRName_skip]
  · simp [parseRName, quote]
  · intro member
    exact (fields.plain quote member).1 rfl

/-- The array after a text of at most its size. -/
def padded (text : List UInt8) : List UInt8 :=
  text ++ List.replicate (R_NAME_SIZE - text.length) 0

/-- The first line of what the kernel prints. -/
theorem fgets_debugfsLine (fields : LineFields)
    (line : name ++ [quote, newline] = front ++ newline :: back)
    (plain : newline ∉ front) (short : front.length ≤ R_NAME_SIZE) :
    fgets LOCK_LINE_MAX (debugfsLine fields name) =
      fields.text ++ 32 :: quote :: (front ++ [newline]) := by
  have numbers : newline ∉ fields.text := by
    intro member
    exact (fields.plain newline member).2 rfl
  have room := fields.short
  have whole : debugfsLine fields name =
      (fields.text ++ 32 :: quote :: front) ++ newline :: back := by
    rw [debugfsLine, line]
    simp
  rw [whole, fgets_line]
  · simp
  · intro member
    rcases List.mem_append.mp member with text | rest
    · exact numbers text
    · rcases List.mem_cons.mp rest with blank | rest
      · cases blank
      · rcases List.mem_cons.mp rest with quoted | rest
        · cases quoted
        · exact plain rest
  · rw [R_NAME_SIZE] at short
    rw [List.length_append, List.length_cons, List.length_cons, LOCK_LINE_MAX]
    omega

theorem readRName_plain (fields : LineFields) (stale : List UInt8)
    (short : name.length ≤ DLM_RESNAME_MAXLEN) (plain : newline ∉ name)
    (unquoted : quote ∉ name) :
    readRName fields stale name = some (padded name) := by
  have fits : name.length ≤ R_NAME_SIZE := Nat.le_trans short (by decide)
  have shape : name ++ [quote, newline] = (name ++ [quote]) ++ newline :: [] :=
    by simp
  have line := fgets_debugfsLine fields shape
    (by simpa [quote, newline] using plain)
    (by rw [List.length_append]; exact Nat.succ_le_succ short)
  have parsed : parseRName false (fgets LOCK_LINE_MAX
      (debugfsLine fields name) ++ 0 :: stale) = some name := by
    rw [line, List.append_assoc, List.cons_append, List.cons_append,
      parseRName_fields, List.append_assoc, List.append_assoc]
    exact parseRName_text unquoted
  simp only [readRName, parsed, fits, if_true]
  rfl

/-- Behind a newline the line buffer holds what was there before. -/
theorem readRName_broken (fields : LineFields) (stale : List UInt8)
    (short : (front ++ newline :: back).length ≤ DLM_RESNAME_MAXLEN)
    (plain : newline ∉ front) (unquoted : quote ∉ front) :
    readRName fields stale (front ++ newline :: back) =
      if quote ∈ stale ∧ front.length + 2 +
          (stale.takeWhile (· != quote)).length ≤ R_NAME_SIZE then
        some (padded
          (front ++ newline :: 0 :: stale.takeWhile (· != quote)))
      else none := by
  have shape : (front ++ newline :: back) ++ [quote, newline] =
      front ++ newline :: (back ++ [quote, newline]) := by simp
  have line := fgets_debugfsLine fields shape plain
    (by
      rw [List.length_append, DLM_RESNAME_MAXLEN] at short
      rw [R_NAME_SIZE]
      omega)
  have memory : parseRName false (fgets LOCK_LINE_MAX
      (debugfsLine fields (front ++ newline :: back)) ++ 0 :: stale) =
      parseRName true ((front ++ [newline, 0]) ++ stale) := by
    rw [line, List.append_assoc, List.cons_append, List.cons_append,
      parseRName_fields]
    simp
  have begun : quote ∉ front ++ [newline, 0] := by
    simpa [quote, newline] using unquoted
  by_cases quoted : quote ∈ stale
  · obtain ⟨before, rest, whole, unquotedBefore⟩ :=
      List.eq_append_cons_of_mem quoted
    have taken : stale.takeWhile (· != quote) = before := by
      rw [whole, List.takeWhile_append_of_pos]
      · simp
      · intro byte listed
        rw [bne_iff_ne]
        intro same
        exact unquotedBefore (same ▸ listed)
    have parsed : parseRName true ((front ++ [newline, 0]) ++ stale) =
        some (front ++ newline :: 0 :: before) := by
      have unquotedText : quote ∉ front ++ [newline, 0] ++ before := by
        intro member
        rcases List.mem_append.mp member with first | later
        · exact begun first
        · exact unquotedBefore later
      rw [whole, ← List.append_assoc, parseRName_text unquotedText]
      simp
    have length : (front ++ newline :: 0 :: before).length =
        front.length + 2 + before.length := by
      rw [List.length_append, List.length_cons, List.length_cons]
      omega
    simp only [readRName, memory, parsed, quoted, true_and, taken, length]
    rw [← length]
    rfl
  · have parsed : parseRName true ((front ++ [newline, 0]) ++ stale) =
        none := by
      apply parseRName_none
      intro member
      rcases List.mem_append.mp member with first | rest
      · exact begun first
      · exact quoted rest
    simp only [readRName, memory, parsed, quoted, false_and, if_false]

end Parse

section Lookup

variable {resources : List RsbName} {name other : List UInt8} {len : Nat}

theorem newRsb_name (fits : len ≤ DLM_RESNAME_MAXLEN) (name : List UInt8) :
    (newRsb name len).name =
      name.take len ++ List.replicate (DLM_RESNAME_MAXLEN - len) 0 := by
  apply List.take_of_length_le
  rw [List.length_append, List.length_take, List.length_replicate]
  omega

theorem getRsb_len (resources : List RsbName) (name : List UInt8)
    (len : Nat) : (getRsb resources name len).2.len = len := by
  unfold getRsb
  split
  · rename_i r found
    have passed := List.find?_some found
    rw [Bool.and_eq_true, beq_iff_eq] at passed
    exact passed.1
  · rfl

theorem strncmpEq_of_take (r : RsbName) (same : other.take len = name.take len) :
    strncmpEq r.name other len = strncmpEq r.name name len := by
  rw [strncmpEq, strncmpEq, same]

/-- A new resource is found under its name. -/
theorem strncmpEq_newRsb (fits : len ≤ DLM_RESNAME_MAXLEN)
    (name : List UInt8) : strncmpEq (newRsb name len).name name len = true := by
  have spaced (bytes : List UInt8) (count : Nat) :
      cString (bytes ++ List.replicate count 0) = cString bytes := by
    induction bytes with
    | nil => exact cString_replicate_zero count
    | cons byte later induction =>
        simp only [cString, List.cons_append, List.takeWhile_cons]
        split
        · exact congrArg _ induction
        · rfl
  rw [strncmpEq, newRsb_name fits, List.take_append, List.take_take,
    List.take_replicate, spaced]
  simp

theorem getRsb_matches (fits : len ≤ DLM_RESNAME_MAXLEN)
    (resources : List RsbName) (name : List UInt8) :
    strncmpEq (getRsb resources name len).2.name name len = true := by
  unfold getRsb
  split
  · rename_i r found
    have passed := List.find?_some found
    rw [Bool.and_eq_true] at passed
    exact passed.2
  · exact strncmpEq_newRsb fits name

/-- A second lookup with the same bytes finds the same resource. -/
theorem getRsb_again (fits : len ≤ DLM_RESNAME_MAXLEN)
    (same : other.take len = name.take len) :
    getRsb (getRsb resources name len).1 other len =
      getRsb resources name len := by
  have test : (fun r : RsbName => r.len == len && strncmpEq r.name other len) =
      fun r => r.len == len && strncmpEq r.name name len := by
    funext r
    rw [strncmpEq_of_take r same]
  cases found : resources.find? fun r =>
      r.len == len && strncmpEq r.name name len with
  | some r =>
      have first : getRsb resources name len = (resources, r) := by
        rw [getRsb, found]
      rw [first, getRsb, test, found]
  | none =>
      have first : getRsb resources name len =
          (newRsb name len :: resources, newRsb name len) := by
        rw [getRsb, found]
      have passes : ((newRsb name len).len == len &&
          strncmpEq (newRsb name len).name name len) = true := by
        rw [strncmpEq_newRsb fits]
        simp [newRsb]
      have found : (newRsb name len :: resources).find? (fun r =>
          r.len == len && strncmpEq r.name name len) =
          some (newRsb name len) :=
        List.find?_cons_of_pos passes
      rw [first, getRsb, test, found]

end Lookup

/-- The array begins with the name. -/
def Spells (array name : List UInt8) : Prop :=
  array.take name.length = name

section Resolve

variable {passage : Passage} {name front back written known : List UInt8}

theorem spells_padded (text later : List UInt8) :
    Spells (padded (text ++ later)) text := by
  rw [Spells, padded, List.append_assoc]
  exact List.take_left' rfl

/-- The string that the writing node finds in a resource whose name is shorter
than the array. -/
theorem cString_rsbMemory (host : Endian) (textual : 0 ∉ name)
    (short : name.length < DLM_RESNAME_MAXLEN) (spells : Spells written name) :
    cString (rsbMemory host (newRsb written name.length)) = name := by
  obtain ⟨more, room⟩ : ∃ more, DLM_RESNAME_MAXLEN - name.length = more + 1 :=
    ⟨DLM_RESNAME_MAXLEN - name.length - 1, by omega⟩
  rw [rsbMemory, newRsb_name (Nat.le_of_lt short), spells, List.append_assoc,
    cString_append textual, room, List.replicate_succ]
  simp

/-- A name that is shorter than the array and was read on both nodes. -/
theorem lookup_of_spells (textual : 0 ∉ name)
    (short : name.length < DLM_RESNAME_MAXLEN)
    (writer : Spells written name) (reader : Spells known name) :
    lookupSection (getRsb passage.resources known name.length).1
        (sectionIdOf passage.host passage.stack
          (newRsb written name.length)) =
      getRsb passage.resources known name.length := by
  have text := cString_rsbMemory passage.host textual short writer
  have kept : name.take (DLM_RESNAME_MAXLEN - 1) = name :=
    List.take_of_length_le (by omega)
  rw [lookupSection, sectionIdOf, text, kept, Nat.add_sub_cancel]
  apply getRsb_again (Nat.le_of_lt short)
  rw [reader, List.append_assoc]
  exact List.take_left' rfl

/-- A resource that is looked up with another length is not found. -/
theorem lookup_len_ne
    (different : (cString (rsbMemory passage.host
      (newRsb written name.length))).length ≠ name.length) :
    lookupSection (getRsb passage.resources known name.length).1
        (sectionIdOf passage.host passage.stack
          (newRsb written name.length)) ≠
      getRsb passage.resources known name.length := by
  intro resolved
  have length := congrArg (fun result => result.2.len) resolved
  simp only [lookupSection, getRsb_len, sectionIdOf,
    Nat.add_sub_cancel] at length
  exact different length

/-- A name that fills the array is cut in the section id. -/
theorem lookup_full (textual : 0 ∉ name)
    (full : name.length = DLM_RESNAME_MAXLEN)
    (writer : Spells written name) (reader : Spells known name) :
    lookupSection (getRsb passage.resources known name.length).1
        (sectionIdOf passage.host passage.stack
          (newRsb written name.length)) ≠
      getRsb passage.resources known name.length := by
  have array : (newRsb written name.length).name = name := by
    rw [newRsb_name (Nat.le_of_eq full), writer, full, Nat.sub_self]
    simp
  have text : cString (rsbMemory passage.host
      (newRsb written name.length)) =
      name ++ cString (passage.host.store 4 name.length) := by
    rw [rsbMemory, array, cString_append textual]
    rfl
  by_cases ended : cString (passage.host.store 4 name.length) = []
  · rw [ended, List.append_nil] at text
    have fits := Nat.le_of_eq full
    let section_ := sectionIdOf passage.host passage.stack
      (newRsb written name.length)
    have length : section_.idLen - 1 = name.length := by
      simp only [section_, sectionIdOf, text, Nat.add_sub_cancel]
    have cut : cString (section_.id.take name.length) =
        name.take (DLM_RESNAME_MAXLEN - 1) := by
      have shorter : 0 ∉ name.take (DLM_RESNAME_MAXLEN - 1) :=
        fun member => textual (List.mem_of_mem_take member)
      have room : (name.take (DLM_RESNAME_MAXLEN - 1)).length =
          DLM_RESNAME_MAXLEN - 1 := by
        rw [List.length_take, full]
        rfl
      simp only [section_, sectionIdOf, text, room]
      have whole : (name.take (DLM_RESNAME_MAXLEN - 1) ++ List.replicate
          (DLM_RESNAME_MAXLEN - (DLM_RESNAME_MAXLEN - 1)) 0).length =
          DLM_RESNAME_MAXLEN := by
        rw [List.length_append, room, List.length_replicate]
        rfl
      rw [full, List.take_left' whole, cString_append shorter,
        cString_replicate_zero, List.append_nil]
    intro resolved
    rw [lookupSection, length] at resolved
    have found := getRsb_matches fits
      (getRsb passage.resources known name.length).1 section_.id
    have before := getRsb_matches fits passage.resources known
    rw [resolved, strncmpEq, beq_iff_eq, cut] at found
    rw [strncmpEq, beq_iff_eq, reader, found,
      cString_eq_self textual] at before
    have shorter := congrArg List.length before
    rw [List.length_take, full] at shorter
    cases shorter
  · apply lookup_len_ne
    rw [text, List.length_append]
    have more := List.length_pos_iff.mpr ended
    omega

/-- A name with a newline inside is cut there. -/
theorem lookup_broken (textual : 0 ∉ front) (continued : back ≠ [])
    (short : (front ++ newline :: back).length ≤ DLM_RESNAME_MAXLEN)
    (later : List UInt8)
    (array : written = padded (front ++ newline :: 0 :: later)) :
    lookupSection
        (getRsb passage.resources known (front ++ newline :: back).length).1
        (sectionIdOf passage.host passage.stack
          (newRsb written (front ++ newline :: back).length)) ≠
      getRsb passage.resources known (front ++ newline :: back).length := by
  apply lookup_len_ne
  have begun : 0 ∉ front ++ [newline] := by
    simpa [newline] using textual
  have length : (front ++ newline :: back).length =
      (front ++ [newline, 0]).length + (back.length - 1) := by
    have some_ := List.length_pos_iff.mpr continued
    simp only [List.length_append, List.length_cons, List.length_nil]
    omega
  have taken : ∃ rest, written.take (front ++ newline :: back).length =
      (front ++ [newline]) ++ 0 :: rest := by
    have parts : written = (front ++ [newline, 0]) ++ (later ++
        List.replicate (R_NAME_SIZE -
          (front ++ newline :: 0 :: later).length) 0) := by
      rw [array, padded]
      simp
    rw [length, parts, List.take_length_add_append]
    refine ⟨(later ++ List.replicate (R_NAME_SIZE -
      (front ++ newline :: 0 :: later).length) 0).take
        (back.length - 1), ?_⟩
    simp
  obtain ⟨rest, taken⟩ := taken
  rw [rsbMemory, newRsb_name short, taken, List.append_assoc,
    List.append_assoc, cString_append begun]
  simp only [List.cons_append, cString_zero, List.append_nil,
    List.length_append, List.length_cons, List.length_nil]
  have some_ := List.length_pos_iff.mpr continued
  omega

theorem readRName_spells (fields : LineFields) (stale : List UInt8)
    (short : name.length ≤ DLM_RESNAME_MAXLEN) (unquoted : quote ∉ name)
    (readable : Readable stale name) :
    ∃ array, readRName fields stale name = some array ∧
      Spells array name := by
  rcases readable with plain | ⟨front, rfl, plain, quoted, room⟩
  · refine ⟨padded name, readRName_plain fields stale short plain unquoted, ?_⟩
    have spells := spells_padded name []
    rw [List.append_nil] at spells
    exact spells
  · have unquotedFront : quote ∉ front :=
      fun member => unquoted (List.mem_append_left _ member)
    have read := readRName_broken fields stale short plain unquotedFront
    rw [List.length_append, List.length_singleton] at room
    rw [if_pos ⟨quoted, room⟩] at read
    refine ⟨_, read, ?_⟩
    have spells := spells_padded (front ++ [newline])
      (0 :: stale.takeWhile (· != quote))
    rw [List.append_assoc] at spells
    exact spells

theorem spells_of_read {fields : LineFields} {stale array : List UInt8}
    (short : name.length ≤ DLM_RESNAME_MAXLEN) (unquoted : quote ∉ name)
    (readable : Readable stale name)
    (read : readRName fields stale name = some array) : Spells array name := by
  obtain ⟨other, same, spells⟩ :=
    readRName_spells fields stale short unquoted readable
  rw [read] at same
  cases same
  exact spells

/-- A name that is read back has no newline before its last byte. -/
theorem back_of_readable {stale front back : List UInt8}
    (readable : Readable stale (front ++ newline :: back)) :
    back = [] := by
  rcases readable with plain | ⟨start, ends, plain, -, -⟩
  · exact (plain (by simp)).elim
  · rcases List.eq_nil_or_concat back with none_ | ⟨middle, last, rfl⟩
    · exact none_
    · have same : front ++ newline :: middle = start := by
        have split : (front ++ newline :: middle) ++ [last] =
            start ++ [newline] := by
          simpa using ends
        exact (List.append_inj' split rfl).1
      exact (plain (by simp [← same])).elim

/-- What has been read is the name, or is cut at a newline inside. -/
theorem readRName_cases {fields : LineFields} {stale array : List UInt8}
    (short : name.length ≤ DLM_RESNAME_MAXLEN) (unquoted : quote ∉ name)
    (read : readRName fields stale name = some array) :
    (Readable stale name ∧ Spells array name) ∨
      ∃ front back later, name = front ++ newline :: back ∧ back ≠ [] ∧
        array = padded (front ++ newline :: 0 :: later) := by
  have spelled (readable : Readable stale name) : Spells array name :=
    spells_of_read short unquoted readable read
  by_cases plain : newline ∈ name
  · obtain ⟨front, back, rfl, first⟩ := List.eq_append_cons_of_mem plain
    have unquotedFront : quote ∉ front :=
      fun member => unquoted (List.mem_append_left _ member)
    rw [readRName_broken fields stale short first unquotedFront] at read
    split at read
    · rename_i enough
      cases back with
      | nil =>
          have readable : Readable stale (front ++ [newline]) := by
            refine .inr ⟨front, rfl, first, enough.1, ?_⟩
            rw [List.length_append, List.length_singleton]
            exact enough.2
          exact .inl ⟨readable, spelled readable⟩
      | cons byte more =>
          cases read
          exact .inr ⟨front, byte :: more, _, rfl, by simp, rfl⟩
    · cases read
  · exact .inl ⟨.inl plain, spelled (.inl plain)⟩

end Resolve

/-- A name of 1 to `DLM_RESNAME_MAXLEN` bytes without NUL and double quote is
resolved on the other node exactly if it leaves room for a terminator in the
array and can be read from the debugfs files of both nodes. -/
theorem resolves_iff (passage : Passage) (name : List UInt8)
    (short : name.length ≤ DLM_RESNAME_MAXLEN) (textual : 0 ∉ name)
    (unquoted : quote ∉ name) :
    Resolves passage name ↔
      name.length < DLM_RESNAME_MAXLEN ∧
        Readable passage.writerStale name ∧
        Readable passage.readerStale name := by
  constructor
  · intro ⟨written, known, readWritten, readKnown, resolved⟩
    rcases readRName_cases short unquoted readWritten with
      ⟨writerReads, writer⟩ | ⟨front, back, later, rfl, continued, array⟩
    · rcases readRName_cases short unquoted readKnown with
        ⟨readerReads, reader⟩ | ⟨front, back, later, rfl, continued, array⟩
      · refine ⟨?_, writerReads, readerReads⟩
        apply Nat.lt_of_le_of_ne short
        intro full
        exact lookup_full textual full writer reader resolved
      · exact (continued (back_of_readable writerReads)).elim
    · have textualFront : 0 ∉ front :=
        fun member => textual (List.mem_append_left _ member)
      exact (lookup_broken textualFront continued short later array
        resolved).elim
  · intro ⟨room, writerReads, readerReads⟩
    obtain ⟨written, readWritten, writer⟩ := readRName_spells
      passage.writerFields _ short unquoted writerReads
    obtain ⟨known, readKnown, reader⟩ := readRName_spells
      passage.readerFields _ short unquoted readerReads
    exact ⟨written, known, readWritten, readKnown,
      lookup_of_spells textual room writer reader⟩

/-- Two nodes that know no resource yet and read a line without numbers. -/
def emptyPassage : Passage :=
  let fields : LineFields :=
    { text := []
      plain := fun _ none_ => absurd none_ List.not_mem_nil
      short := Nat.zero_le _ }
  { host := .little
    stack := []
    writerFields := fields
    writerStale := []
    readerFields := fields
    readerStale := []
    resources := [] }

theorem shortName_resolves : Resolves emptyPassage [97, 98, 99] := by
  apply (resolves_iff emptyPassage [97, 98, 99] (by decide) (by decide)
    (by decide)).mpr
  exact ⟨by decide, .inl (by decide), .inl (by decide)⟩

/-- A name of the greatest length is not resolved. -/
theorem fullName_unresolved :
    ¬∀ (passage : Passage) (name : List UInt8), 1 ≤ name.length →
      name.length ≤ DLM_RESNAME_MAXLEN → 0 ∉ name → quote ∉ name →
      Resolves passage name := by
  intro always
  have textual : (0 : UInt8) ∉ List.replicate DLM_RESNAME_MAXLEN 97 := by
    decide
  have unquoted : quote ∉ List.replicate DLM_RESNAME_MAXLEN 97 := by decide
  have plain : newline ∉ List.replicate DLM_RESNAME_MAXLEN 97 := by decide
  have full : (List.replicate DLM_RESNAME_MAXLEN (97 : UInt8)).length =
      DLM_RESNAME_MAXLEN := List.length_replicate
  obtain ⟨written, known, readWritten, readKnown, resolved⟩ :=
    always emptyPassage (List.replicate DLM_RESNAME_MAXLEN 97) (by decide)
      (Nat.le_of_eq full) textual unquoted
  have writer :=
    spells_of_read (Nat.le_of_eq full) unquoted (.inl plain) readWritten
  have reader :=
    spells_of_read (Nat.le_of_eq full) unquoted (.inl plain) readKnown
  exact lookup_full textual full writer reader resolved

end Dlm.Deadlock
