import Mathlib.Data.List.TakeWhile

/-!
# Numbers and strings in memory

The bytes of a number as a machine of either byte order stores them.  A value
that is converted to little endian before it is stored has the same bytes on
every machine.  A string in memory ends in front of its first NUL, and a file
is read by lines.
-/

namespace Dlm

/-- The bytes of a number, the lowest first. -/
def littleEndian : Nat → Nat → List UInt8
  | 0, _ => []
  | width + 1, value =>
      UInt8.ofNat value :: littleEndian width (value / 256)

/-- The number with the given bytes, the lowest first. -/
def ofLittleEndian : List UInt8 → Nat
  | [] => 0
  | byte :: later => byte.toNat + 256 * ofLittleEndian later

@[simp] theorem length_littleEndian (width value : Nat) :
    (littleEndian width value).length = width := by
  induction width generalizing value with
  | zero => rfl
  | succ width induction => simp [littleEndian, induction]

theorem ofLittleEndian_littleEndian {width value : Nat}
    (fits : value < Nat.pow 256 width) :
    ofLittleEndian (littleEndian width value) = value := by
  induction width generalizing value with
  | zero =>
      have zero : value = 0 := Nat.lt_one_iff.mp fits
      rw [littleEndian, ofLittleEndian, zero]
  | succ width induction =>
      have higher : value / 256 < Nat.pow 256 width := by
        apply Nat.div_lt_of_lt_mul
        rw [Nat.mul_comm]
        exact fits
      rw [littleEndian, ofLittleEndian, induction higher, UInt8.toNat_ofNat']
      omega

theorem littleEndian_ofLittleEndian (bytes : List UInt8) :
    littleEndian bytes.length (ofLittleEndian bytes) = bytes := by
  induction bytes with
  | nil => rfl
  | cons byte later induction =>
      have lowest := byte.toNat_lt
      have shifted : (byte.toNat + 256 * ofLittleEndian later) / 256 =
          ofLittleEndian later := by
        omega
      have kept : UInt8.ofNat (byte.toNat + 256 * ofLittleEndian later) =
          byte := by
        apply UInt8.toNat_inj.mp
        rw [UInt8.toNat_ofNat']
        omega
      rw [List.length_cons, littleEndian, ofLittleEndian, shifted, kept,
        induction]

/-- The byte order of a machine. -/
inductive Endian where
  | little
  | big
  deriving DecidableEq, Repr

namespace Endian

/-- What the machine writes to memory for a number. -/
def store (order : Endian) (width value : Nat) : List UInt8 :=
  match order with
  | .little => littleEndian width value
  | .big => (littleEndian width value).reverse

/-- What the machine reads from memory. -/
def load (order : Endian) (bytes : List UInt8) : Nat :=
  match order with
  | .little => ofLittleEndian bytes
  | .big => ofLittleEndian bytes.reverse

/-- The conversion to little endian, which is its own inverse. -/
def swapLe (order : Endian) (width value : Nat) : Nat :=
  match order with
  | .little => value
  | .big => ofLittleEndian (littleEndian width value).reverse

@[simp] theorem length_store (order : Endian) (width value : Nat) :
    (order.store width value).length = width := by
  cases order with
  | little => exact length_littleEndian width value
  | big => rw [store, List.length_reverse, length_littleEndian]

/-- A converted number has the same bytes on every machine. -/
theorem store_swapLe (order : Endian) (width value : Nat) :
    order.store width (order.swapLe width value) =
      littleEndian width value := by
  cases order with
  | little => rfl
  | big =>
      have length : (littleEndian width value).reverse.length = width := by
        rw [List.length_reverse, length_littleEndian]
      have restored := littleEndian_ofLittleEndian
        (littleEndian width value).reverse
      rw [length] at restored
      rw [store, swapLe, restored, List.reverse_reverse]

theorem swapLe_load (order : Endian) (bytes : List UInt8) :
    order.swapLe bytes.length (order.load bytes) = ofLittleEndian bytes := by
  cases order with
  | little => rfl
  | big =>
      have restored := littleEndian_ofLittleEndian bytes.reverse
      rw [List.length_reverse] at restored
      rw [swapLe, load, restored, List.reverse_reverse]

/-- What one machine has stored another one reads. -/
theorem swapLe_load_store (writer reader : Endian) {width value : Nat}
    (fits : value < Nat.pow 256 width) :
    reader.swapLe width
        (reader.load (writer.store width (writer.swapLe width value))) =
      value := by
  rw [store_swapLe]
  have read := reader.swapLe_load (littleEndian width value)
  rw [length_littleEndian] at read
  rw [read, ofLittleEndian_littleEndian fits]

end Endian

/-- A number that is converted to little endian, in memory. -/
def storeLe (host : Endian) (width value : Nat) : List UInt8 :=
  host.store width (host.swapLe width value)

/-- A number that is read from memory and converted from little endian. -/
def loadLe (host : Endian) (bytes : List UInt8) : Nat :=
  host.swapLe bytes.length (host.load bytes)

@[simp] theorem length_storeLe (host : Endian) (width value : Nat) :
    (storeLe host width value).length = width :=
  Endian.length_store ..

theorem loadLe_storeLe {writer reader : Endian} {width value : Nat}
    (fits : value < Nat.pow 256 width) :
    loadLe reader (storeLe writer width value) = value := by
  rw [loadLe, length_storeLe]
  exact Endian.swapLe_load_store writer reader fits

/-- The bytes of a buffer in front of its first NUL, as `strlen` counts
them. -/
def cString (buf : List UInt8) : List UInt8 :=
  buf.takeWhile (· != 0)

theorem cString_ne_zero {buf : List UInt8} {byte : UInt8}
    (member : byte ∈ cString buf) : byte ≠ 0 := by
  simpa using List.mem_takeWhile_imp member

/-- The bytes of a string that is not ended yet. -/
theorem cString_append {front : List UInt8} (textual : 0 ∉ front)
    (back : List UInt8) : cString (front ++ back) = front ++ cString back := by
  rw [cString, List.takeWhile_append_of_pos]
  · rfl
  · intro byte member
    rw [bne_iff_ne]
    intro zero
    exact textual (zero ▸ member)

theorem cString_eq_self {text : List UInt8} (textual : 0 ∉ text) :
    cString text = text := by
  have whole := cString_append textual []
  rw [List.append_nil] at whole
  rw [whole]
  exact List.append_nil text

@[simp] theorem cString_cString (buf : List UInt8) :
    cString (cString buf) = cString buf := by
  apply cString_eq_self
  intro member
  exact cString_ne_zero member rfl

@[simp] theorem cString_zero (later : List UInt8) :
    cString (0 :: later) = [] := rfl

@[simp] theorem cString_replicate_zero (count : Nat) :
    cString (List.replicate count 0) = [] := by
  cases count with
  | zero => rfl
  | succ count => rfl

theorem take_length_cString (buf : List UInt8) :
    buf.take (cString buf).length = cString buf :=
  List.prefix_iff_eq_take.mp (List.takeWhile_prefix _) |>.symm

/-- The string is shorter than a buffer in which it ends. -/
theorem length_cString_lt {buf : List UInt8} (ended : 0 ∈ buf) :
    (cString buf).length < buf.length := by
  have whole : cString buf <+: buf := List.takeWhile_prefix _
  apply Nat.lt_of_le_of_ne whole.length_le
  intro same
  have zero : (0 : UInt8) ∈ cString buf := by
    rw [whole.eq_of_length same]
    exact ended
  exact cString_ne_zero zero rfl

/-- `strncpy`: the bytes of the destination from `count` on are kept. -/
def strncpy (dst src : List UInt8) (count : Nat) : List UInt8 :=
  let text := (cString src).take count
  text ++ (List.replicate (count - text.length) 0 ++ dst.drop count)

theorem cString_take_ne_zero (src : List UInt8) (count : Nat) :
    0 ∉ (cString src).take count := by
  intro member
  exact cString_ne_zero (List.mem_of_mem_take member) rfl

theorem cString_strncpy_short (dst : List UInt8) {src : List UInt8}
    {count : Nat} (short : (cString src).length < count) :
    cString (strncpy dst src count) = cString src := by
  have whole : (cString src).take count = cString src :=
    List.take_of_length_le short.le
  obtain ⟨more, room⟩ : ∃ more, count - (cString src).length = more + 1 :=
    ⟨count - (cString src).length - 1, by omega⟩
  simp only [strncpy]
  rw [cString_append (cString_take_ne_zero src count), whole, room,
    List.replicate_succ, List.cons_append, cString_zero, List.append_nil]

/-- A string that is too long is not ended. -/
theorem cString_strncpy_long (dst : List UInt8) {src : List UInt8}
    {count : Nat} (long : count ≤ (cString src).length) :
    cString (strncpy dst src count) =
      (cString src).take count ++ cString (dst.drop count) := by
  have full : count - ((cString src).take count).length = 0 := by
    rw [List.length_take_of_le long, Nat.sub_self]
  simp only [strncpy]
  rw [cString_append (cString_take_ne_zero src count), full,
    List.replicate_zero, List.nil_append]

/-- Whether `strncmp` returns 0. -/
def strncmpEq (left right : List UInt8) (count : Nat) : Bool :=
  cString (left.take count) == cString (right.take count)

theorem strncmpEq_of_begins {tag line : List UInt8} (begins : tag <+: line) :
    strncmpEq line tag tag.length = true := by
  rw [strncmpEq, ← List.prefix_iff_eq_take.mp begins, List.take_length,
    beq_self_eq_true]

/-- A string does not begin with a text that its beginning excludes. -/
theorem not_strncmpEq_of_begins {tag other line : List UInt8}
    (begins : tag <+: line) (textual : 0 ∉ other)
    (apart : ¬ (tag <+: other ∨ other <+: tag)) :
    ¬ strncmpEq line other other.length = true := by
  intro same
  rw [strncmpEq, List.take_length, cString_eq_self textual, beq_iff_eq]
    at same
  have first : other <+: line := by
    rw [← same]
    exact (List.takeWhile_prefix _).trans (List.take_prefix _ _)
  exact apart (List.prefix_or_prefix_of_prefix begins first)

def newline : UInt8 := 10

/-- What `fgets` reads into a buffer, without the terminator. -/
def fgets (size : Nat) (stream : List UInt8) : List UInt8 :=
  let chunk := stream.take (size - 1)
  if newline ∈ chunk then
    chunk.takeWhile (· != newline) ++ [newline]
  else chunk

theorem fgets_line {size : Nat} {front back : List UInt8}
    (plain : newline ∉ front) (short : front.length + 1 ≤ size - 1) :
    fgets size (front ++ newline :: back) = front ++ [newline] := by
  have chunk : (front ++ newline :: back).take (size - 1) =
      front ++ newline :: back.take (size - 1 - (front.length + 1)) := by
    rw [List.take_append, List.take_of_length_le (by omega)]
    congr 1
    obtain ⟨more, room⟩ : ∃ more, size - 1 - front.length = more + 1 :=
      ⟨size - 1 - front.length - 1, by omega⟩
    rw [room, List.take_succ_cons]
    congr 2
    omega
  have member : newline ∈
      front ++ newline :: back.take (size - 1 - (front.length + 1)) := by
    simp
  rw [fgets, chunk]
  simp only [member, if_true]
  rw [List.takeWhile_append_of_pos]
  · simp
  · intro byte listed
    rw [bne_iff_ne]
    intro same
    exact plain (same ▸ listed)

end Dlm
