import Dlm.Lib.Segments
import Dlm.Plock.Table

/-!
# The lock table as a map from bytes to modes

For every byte and holder the table gives at most one mode.  `lock_internal`
writes the requested mode on the requested range of the requester and changes
nothing else, and `unlock_internal` removes the requester from the range.
-/

namespace Dlm.Plock

open Segments

variable {locks : List PosixLock}

/-- Who holds or asks for a lock: the node and the lock owner on it. -/
abbrev Holder := Int32 × UInt64

def PosixLock.holder (po : PosixLock) : Holder := (po.nodeid, po.owner)

def Info.holder (info : Info) : Holder := (info.nodeid, info.owner)

/-- A lock gives its holder its mode on its range. -/
def lockView : View PosixLock Holder UInt64 UInt8 :=
  { key := PosixLock.holder
    lo := PosixLock.start
    hi := PosixLock.stop
    val := PosixLock.ex }

/-- The holder has the byte locked in the mode. -/
abbrev Holds (locks : List PosixLock) (holder : Holder) (byte : UInt64)
    (mode : UInt8) : Prop :=
  lockView.Holds locks holder byte mode

/-- The representation invariant of `r->locks`. -/
structure WellFormed (locks : List PosixLock) : Prop where
  tidy : lockView.Tidy locks
  mode : ∀ po ∈ locks, po.ex = 0 ∨ po.ex = 1

/-- What the kernel guarantees of a request. -/
structure Info.Valid (info : Info) : Prop where
  ordered : info.start ≤ info.stop
  mode : info.ex = 0 ∨ info.ex = 1

instance (info : Info) : Decidable info.Valid :=
  decidable_of_iff (info.start ≤ info.stop ∧ (info.ex = 0 ∨ info.ex = 1))
    ⟨fun both => ⟨both.1, both.2⟩, fun valid => ⟨valid.ordered, valid.mode⟩⟩

/-- The bytes of the request are set to `mode` for its holder. -/
def Rewrites (info : Info) (mode : Option UInt8)
    (old new : List PosixLock) : Prop :=
  Written (Holds old) (Holds new) info.holder info.start info.stop mode

@[simp] theorem rangesOverlap_eq_true_iff
    {start1 stop1 start2 stop2 : UInt64} :
    rangesOverlap start1 stop1 start2 stop2 = true ↔
      start2 ≤ stop1 ∧ start1 ≤ stop2 := by
  simp only [rangesOverlap]
  grind

@[simp] theorem rangesOverlap_eq_false_iff
    {start1 stop1 start2 stop2 : UInt64} :
    rangesOverlap start1 stop1 start2 stop2 = false ↔
      stop1 < start2 ∨ stop2 < start1 := by
  simp only [rangesOverlap]
  grind

theorem WellFormed.nil : WellFormed [] :=
  ⟨View.Tidy.nil, by simp⟩

theorem WellFormed.sublist {fewer : List PosixLock}
    (wellFormed : WellFormed locks) (sublist : fewer.Sublist locks) :
    WellFormed fewer :=
  ⟨wellFormed.tidy.sublist sublist,
    fun po member => wellFormed.mode po (sublist.mem member)⟩

/-- In a mode of 0 or 1, `!` is the other mode. -/
theorem notEx_eq {mode other : UInt8} (first : mode = 0 ∨ mode = 1)
    (second : other = 0 ∨ other = 1) (different : mode ≠ other) :
    notEx other = mode := by
  rcases first with rfl | rfl <;> rcases second with rfl | rfl <;>
    simp_all [notEx]

/-- Every pair of overlapping ranges falls into one of the cases 0 to 4, and
the case fixes their relative position. -/
theorem overlapType_spec (s1 e1 s2 e2 : UInt64) :
    match overlapType s1 e1 s2 e2 with
    | .case0 => s1 = s2 ∧ e1 = e2
    | .case1 => (s1 = s2 ∧ e1 < e2) ∨ (s2 < s1 ∧ e1 = e2)
    | .case2 => s2 < s1 ∧ e1 < e2
    | .case3 => s1 ≤ s2 ∧ e2 ≤ e1
    | .case4 => (s2 < s1 ∧ e2 < e1) ∨ (s1 < s2 ∧ e1 < e2)
    | .invalid => False := by
  unfold overlapType
  grind

@[simp] theorem addLock_ok (locks : List PosixLock) (nodeid : Int32)
    (owner : UInt64) (pid : UInt32) (ex : UInt8) (start stop : UInt64) :
    addLock [] locks nodeid owner pid ex start stop =
      (0, locks ++
        [{ pid := pid
           owner := owner
           start := start
           stop := stop
           ex := ex
           nodeid := nodeid
           syncing := false }], []) := rfl

/-- `result` is a well-formed table in which the bytes of the request are set
to `mode` for its holder and everything else is as in `old`. -/
def Performs (info : Info) (mode : Option UInt8) (old : List PosixLock)
    (result : Int × List PosixLock) : Prop :=
  result.1 = 0 ∧ WellFormed result.2 ∧ Rewrites info mode old result.2

theorem lockView_at {po : PosixLock} {holder : Holder} {byte : UInt64}
    {mode : UInt8} :
    lockView.At po holder byte mode ↔
      po.holder = holder ∧ po.start ≤ byte ∧ byte ≤ po.stop ∧ po.ex = mode :=
  Iff.rfl

section Loop

variable {info : Info} {mode : Option UInt8}
variable {before after : List PosixLock} {po : PosixLock}

/-- A request inside the range of one lock of its holder is performed by
replacing this lock by pieces of it. -/
theorem performs_pieces (pieces : List PosixLock)
    (wellFormed : WellFormed (before ++ po :: after))
    (same : po.holder = info.holder) (above : po.start ≤ info.start)
    (below : info.stop ≤ po.stop) (piecesTidy : lockView.Tidy pieces)
    (within : ∀ piece ∈ pieces, piece.holder = po.holder ∧
      po.start ≤ piece.start ∧ piece.stop ≤ po.stop ∧
      (piece.ex = 0 ∨ piece.ex = 1)) (bytes : ∀ byte value,
      (∃ piece ∈ pieces, piece.start ≤ byte ∧ byte ≤ piece.stop ∧
        piece.ex = value) ↔
        (info.start ≤ byte ∧ byte ≤ info.stop ∧ mode = some value) ∨
          (¬(info.start ≤ byte ∧ byte ≤ info.stop) ∧
            po.start ≤ byte ∧ byte ≤ po.stop ∧ po.ex = value))
    (arranged : locks.Perm (pieces ++ (before ++ after))) :
    Performs info mode (before ++ po :: after) (0, locks) := by
  have pieceHolds : ∀ byte value,
      lockView.Holds pieces (lockView.key po) byte value ↔
        (info.start ≤ byte ∧ byte ≤ info.stop ∧ mode = some value) ∨
          (¬(info.start ≤ byte ∧ byte ≤ info.stop) ∧
            lockView.At po (lockView.key po) byte value) := by
    intro byte value
    have covered : lockView.Holds pieces (lockView.key po) byte value ↔
        ∃ piece ∈ pieces, piece.start ≤ byte ∧ byte ≤ piece.stop ∧
          piece.ex = value := by
      constructor
      · rintro ⟨piece, member, _, inside⟩
        exact ⟨piece, member, inside⟩
      · rintro ⟨piece, member, inside⟩
        exact ⟨piece, member, (within piece member).1, inside⟩
    rw [covered, bytes byte value]
    simp [lockView_at, show lockView.key po = po.holder from rfl]
  have replaced := wellFormed.tidy.replace piecesTidy
    (fun piece member =>
      ⟨(within piece member).1, (within piece member).2.1,
        (within piece member).2.2.1⟩)
    above below pieceHolds arranged
  refine ⟨rfl, ⟨replaced.1, ?_⟩, ?_⟩
  · intro other member
    rcases List.mem_append.mp (arranged.subset member) with inPieces | rest
    · exact (within other inPieces).2.2.2
    · apply wellFormed.mode other
      rcases List.mem_append.mp rest with early | late
      · simp [early]
      · simp [late]
  · have written := replaced.2
    rw [show lockView.key po = info.holder from same] at written
    exact written

/-- The request is already covered in its mode. -/
theorem performs_covered
    (wellFormed : WellFormed (before ++ po :: after))
    (same : po.holder = info.holder)
    (above : po.start ≤ info.start) (below : info.stop ≤ po.stop)
    (equal : po.ex = info.ex) :
    Performs info (some info.ex) (before ++ po :: after)
      (0, before ++ po :: after) := by
  have ordered : po.start ≤ po.stop := wellFormed.tidy.ordered po (by simp)
  have poMode := wellFormed.mode po (by simp)
  apply performs_pieces [po] wellFormed same above below
  · exact View.Tidy.singleton ordered
  · grind
  · simp only [List.mem_singleton, exists_eq_left]
    grind
  · exact List.perm_middle

theorem lockCase1_performs
    (valid : info.Valid)
    (wellFormed : WellFormed (before ++ po :: after))
    (same : po.holder = info.holder)
    (position : (info.start = po.start ∧ info.stop < po.stop) ∨
      (po.start < info.start ∧ info.stop = po.stop))
    (different : po.ex ≠ info.ex) :
    Performs info (some info.ex) (before ++ po :: after)
      (lockCase1 [] before po after info) := by
  have ordered := valid.ordered
  have poMode := wellFormed.mode po (by simp)
  have mode := notEx_eq poMode valid.mode different
  -- The other piece is the part of `po` before or behind the request.
  obtain ⟨start2, stop2, shrunk, startAbove, fragmentOrdered, stopBelow,
      fragmentBytes⟩ :
      ∃ start2 stop2,
        shrinkRange2 po.start po.stop info.start info.stop =
          (0, start2, stop2) ∧
        po.start ≤ start2 ∧ start2 ≤ stop2 ∧ stop2 ≤ po.stop ∧
        ∀ byte, (start2 ≤ byte ∧ byte ≤ stop2) ↔
          (po.start ≤ byte ∧ byte ≤ po.stop) ∧
            ¬(info.start ≤ byte ∧ byte ≤ info.stop) := by
    rcases position with ⟨front, back⟩ | ⟨front, back⟩
    · exact ⟨info.stop + 1, po.stop, by simp [shrinkRange2]; grind, by grind,
        by grind, by grind, by grind⟩
    · exact ⟨po.start, info.start - 1, by simp [shrinkRange2, front],
        by grind, by grind, by grind, by grind⟩
  simp only [lockCase1, shrunk, addLock_ok, ne_eq, not_true_eq_false,
    if_false, mode]
  have holderEq : (info.nodeid, info.owner) = po.holder := same.symm
  apply performs_pieces
    [{ po with start := info.start, stop := info.stop, ex := info.ex },
      { pid := info.pid, owner := info.owner, start := start2,
        stop := stop2, ex := po.ex, nodeid := info.nodeid,
        syncing := false }]
    wellFormed same (by grind) (by grind)
  · refine ⟨?_, ?_⟩
    · simp [lockView, ordered, fragmentOrdered]
    · simp only [List.pairwise_cons, List.mem_singleton, forall_eq,
        List.not_mem_nil, false_implies, implies_true, List.Pairwise.nil,
        and_true]
      intro _
      have startByte := fragmentBytes start2
      have stopByte := fragmentBytes info.start
      simp only [lockView]
      grind
  · simp only [List.mem_cons, List.not_mem_nil, or_false, forall_eq_or_imp,
      forall_eq]
    have validMode := valid.mode
    simp only [PosixLock.holder] at holderEq ⊢
    grind
  · intro byte value
    have bytes := fragmentBytes byte
    simp only [List.mem_cons, List.not_mem_nil, or_false, exists_eq_or_imp,
      exists_eq_left]
    grind
  · grind

theorem lockCase2_performs
    (valid : info.Valid)
    (wellFormed : WellFormed (before ++ po :: after))
    (same : po.holder = info.holder)
    (front : po.start < info.start) (back : info.stop < po.stop)
    (different : po.ex ≠ info.ex) :
    Performs info (some info.ex) (before ++ po :: after)
      (lockCase2 [] before po after info) := by
  have ordered := valid.ordered
  have poMode := wellFormed.mode po (by simp)
  have mode := notEx_eq poMode valid.mode different
  have holderEq : (info.nodeid, info.owner) = po.holder := same.symm
  simp only [lockCase2, addLock_ok, ne_eq, not_true_eq_false, if_false, mode]
  apply performs_pieces
    [{ po with start := info.start, stop := info.stop, ex := info.ex },
      { pid := info.pid, owner := info.owner, start := po.start,
        stop := info.start - 1, ex := po.ex, nodeid := info.nodeid,
        syncing := false },
      { pid := info.pid, owner := info.owner, start := info.stop + 1,
        stop := po.stop, ex := po.ex, nodeid := info.nodeid,
        syncing := false }]
    wellFormed same (by grind) (by grind)
  · constructor
    · simp only [List.mem_cons, List.not_mem_nil, or_false, lockView]
      grind
    · simp only [List.pairwise_cons, List.mem_cons, List.not_mem_nil,
        or_false, View.Apart, lockView]
      grind
  · have validMode := valid.mode
    simp only [List.mem_cons, List.not_mem_nil, or_false, PosixLock.holder]
      at holderEq ⊢
    grind
  · intro byte value
    simp only [List.mem_cons, List.not_mem_nil, or_false, exists_eq_or_imp,
      exists_eq_left]
    grind
  · grind

/-- The request has the range of the lock: the lock only changes its mode. -/
theorem performs_convert
    (valid : info.Valid)
    (wellFormed : WellFormed (before ++ po :: after))
    (same : po.holder = info.holder)
    (front : info.start = po.start) (back : info.stop = po.stop) :
    Performs info (some info.ex) (before ++ po :: after)
      (0, before ++ { po with ex := info.ex } :: after) := by
  have ordered := valid.ordered
  have validMode := valid.mode
  apply performs_pieces [{ po with ex := info.ex }]
    wellFormed same (by grind) (by grind)
  · exact View.Tidy.singleton (by simp only [lockView]; grind)
  · simp only [List.mem_singleton, PosixLock.holder]
    grind
  · simp only [List.mem_singleton, exists_eq_left]
    grind
  · exact List.perm_middle

/-- A request that meets no lock of its holder. -/
theorem performs_push (valid : info.Valid) (wellFormed : WellFormed locks)
    (clear : lockView.Clear locks info.holder info.start info.stop) :
    Performs info (some info.ex) locks
      (0, locks ++
        [{ pid := info.pid
           owner := info.owner
           start := info.start
           stop := info.stop
           ex := info.ex
           nodeid := info.nodeid
           syncing := false }]) := by
  refine ⟨rfl, ⟨wellFormed.tidy.append (View.Tidy.singleton valid.ordered) ?_,
    ?_⟩, ?_⟩
  · intro other member added addedMember
    rw [List.mem_singleton.mp addedMember]
    exact clear other member
  · intro other member
    rcases List.mem_append.mp member with old | added
    · exact wellFormed.mode other old
    · rw [List.mem_singleton.mp added]
      exact valid.mode
  · intro holder byte value
    have outside := clear.outside byte value
    simp only [View.holds_append, View.holds_cons, View.holds_nil, or_false,
      lockView_at]
    simp only [PosixLock.holder, Info.holder] at outside ⊢
    grind

/-- Dropping a lock, or the part of it that the request meets, in front of
performing the request. -/
theorem Performs.of_agree {old other : List PosixLock}
    {result : Int × List PosixLock}
    (performs : Performs info mode other result)
    (agree : ∀ holder byte value,
      ¬(holder = info.holder ∧ info.start ≤ byte ∧ byte ≤ info.stop) →
        (Holds old holder byte value ↔ Holds other holder byte value)) :
    Performs info mode old result :=
  ⟨performs.1, performs.2.1, performs.2.2.of_agree agree⟩

/-- A lock that only partly meets the request is cut down to a piece that the
request does not meet. -/
theorem cut_spec (info : Info) (piece : PosixLock)
    (wellFormed : WellFormed (before ++ po :: after))
    (same : po.holder = info.holder)
    (sameHolder : piece.holder = po.holder) (sameMode : piece.ex = po.ex)
    (above : po.start ≤ piece.start) (ordered : piece.start ≤ piece.stop)
    (below : piece.stop ≤ po.stop)
    (bytes : ∀ byte, (piece.start ≤ byte ∧ byte ≤ piece.stop) ↔
      (po.start ≤ byte ∧ byte ≤ po.stop) ∧
        ¬(info.start ≤ byte ∧ byte ≤ info.stop)) :
    WellFormed (before ++ [piece] ++ after) ∧
      ∀ holder byte value,
        ¬(holder = info.holder ∧ info.start ≤ byte ∧ byte ≤ info.stop) →
          (Holds (before ++ po :: after) holder byte value ↔
            Holds (before ++ [piece] ++ after) holder byte value) := by
  obtain ⟨othersTidy, apart, _⟩ := wellFormed.tidy.remove
  have arranged :
      (before ++ [piece] ++ after).Perm ([piece] ++ (before ++ after)) := by
    simp
  refine ⟨⟨?_, ?_⟩, ?_⟩
  · refine View.Tidy.perm (View.Tidy.append
      (View.Tidy.singleton ordered) othersTidy ?_) arranged
    intro entry member other otherMember
    rw [List.mem_singleton.mp member]
    exact ((apart other otherMember).shrink sameHolder above below).symm
  · intro other member
    rcases List.mem_append.mp (arranged.subset member) with cut | rest
    · rw [List.mem_singleton.mp cut, sameMode]
      exact wellFormed.mode po (by simp)
    · apply wellFormed.mode other
      rcases List.mem_append.mp rest with early | late
      · simp [early]
      · simp [late]
  · intro holder byte value outside
    have pieceBytes := bytes byte
    simp only [View.holds_append, View.holds_cons, View.holds_nil, or_false,
      lockView_at]
    grind

/-- A lock that lies inside the request is removed. -/
theorem Performs.of_inside {result : Int × List PosixLock}
    (performs : Performs info mode (before ++ after) result)
    (same : po.holder = info.holder) (above : info.start ≤ po.start)
    (below : po.stop ≤ info.stop) :
    Performs info mode (before ++ po :: after) result := by
  apply performs.of_agree
  intro holder byte value outside
  simp only [View.holds_append, View.holds_cons, lockView_at]
  grind

theorem clear_of_other {po : PosixLock}
    (other : po.nodeid ≠ info.nodeid ∨ po.owner ≠ info.owner) :
    po.holder = info.holder →
      po.stop < info.start ∨ info.stop < po.start := by
  simp only [PosixLock.holder, Info.holder]
  grind

theorem sameHolder_of_not {po : PosixLock}
    (same : ¬(po.nodeid ≠ info.nodeid ∨ po.owner ≠ info.owner)) :
    po.holder = info.holder := by
  simp only [PosixLock.holder, Info.holder]
  grind

theorem lockLoop_performs (valid : info.Valid) :
    ∀ after before : List PosixLock,
      WellFormed (before ++ after) →
      lockView.Clear before info.holder info.start info.stop →
      Performs info (some info.ex) (before ++ after)
        (lockLoop [] info before after) := by
  intro after
  induction after with
  | nil =>
      intro before wellFormed clear
      simp only [List.append_nil, lockLoop, addLock_ok] at wellFormed ⊢
      exact performs_push valid wellFormed clear
  | cons po after induction =>
      intro before wellFormed clear
      -- A lock passed over joins the locks that are clear of the request.
      have pass (poClear : po.holder = info.holder →
          po.stop < info.start ∨ info.stop < po.start) :
          Performs info (some info.ex) (before ++ po :: after)
            (lockLoop [] info (before ++ [po]) after) := by
        have passed := induction (before ++ [po]) (by simpa using wellFormed)
          (View.clear_append clear (View.clear_singleton poClear))
        simpa using passed
      rw [lockLoop]
      split
      · rename_i other
        exact pass (clear_of_other other)
      · rename_i notOther
        have same := sameHolder_of_not notOther
        split
        · rename_i apart
          apply pass
          intro _
          simpa using apart
        · rename_i overlaps
          have meets : info.start ≤ po.stop ∧ po.start ≤ info.stop := by
            simpa using overlaps
          have position := overlapType_spec info.start info.stop
            po.start po.stop
          split <;> rename_i kind <;> rw [kind] at position <;>
            simp only at position
          · split
            · exact performs_covered wellFormed same (by grind) (by grind)
                ‹_›
            · exact performs_convert valid wellFormed same position.1
                position.2
          · split
            · exact performs_covered wellFormed same (by grind) (by grind)
                ‹_›
            · exact lockCase1_performs valid wellFormed same position ‹_›
          · split
            · exact performs_covered wellFormed same (by grind) (by grind)
                ‹_›
            · exact lockCase2_performs valid wellFormed same position.1
                position.2 ‹_›
          · have removed := induction before
              (wellFormed.sublist (by simp)) clear
            exact removed.of_inside same position.1 position.2
          · have ordered := valid.ordered
            obtain ⟨pieceWell, agree⟩ := cut_spec info
              (if po.start < info.start then
                { po with stop := info.start - 1 }
              else { po with start := info.stop + 1 })
              wellFormed same (by split <;> rfl) (by split <;> rfl)
              (by split <;> grind) (by split <;> grind)
              (by split <;> grind) (by split <;> grind)
            have cut := induction _ pieceWell
              (View.clear_append clear (View.clear_singleton
                (by simp only [lockView]; split <;> grind)))
            exact cut.of_agree agree

/-- What `shrink_range` leaves of a lock that sticks out on one side. -/
theorem shrinkRange_spec (po : PosixLock) (info : Info)
    (position : (info.start ≤ po.start ∧ info.stop < po.stop) ∨
      (po.start < info.start ∧ po.stop ≤ info.stop))
    (meets : info.start ≤ po.stop ∧ po.start ≤ info.stop) :
    ∃ piece, shrinkRange po info.start info.stop = (0, piece) ∧
      piece.holder = po.holder ∧ piece.ex = po.ex ∧
      po.start ≤ piece.start ∧ piece.start ≤ piece.stop ∧
      piece.stop ≤ po.stop ∧
      (piece.stop < info.start ∨ info.stop < piece.start) ∧
      ∀ byte, (piece.start ≤ byte ∧ byte ≤ piece.stop) ↔
        (po.start ≤ byte ∧ byte ≤ po.stop) ∧
          ¬(info.start ≤ byte ∧ byte ≤ info.stop) := by
  rcases position with ⟨front, back⟩ | ⟨front, back⟩
  · refine ⟨{ po with start := info.stop + 1 }, ?_, rfl, rfl, ?_⟩
    · have notFront : ¬po.start < info.start := by grind
      simp [shrinkRange, shrinkRange2, notFront, back]
    · grind
  · refine ⟨{ po with stop := info.start - 1 }, ?_, rfl, rfl, ?_⟩
    · simp [shrinkRange, shrinkRange2, front]
    · grind

/-- The request has the range of the lock, which is removed. -/
theorem unlock_whole
    (wellFormed : WellFormed (before ++ po :: after))
    (same : po.holder = info.holder)
    (front : info.start = po.start) (back : info.stop = po.stop) :
    Performs info none (before ++ po :: after) (0, before ++ after) := by
  apply performs_pieces [] wellFormed same (by grind) (by grind)
    View.Tidy.nil (by simp)
  · simp only [List.not_mem_nil, false_and, exists_false]
    grind
  · exact .refl _

/-- The request ends the lock on one side, which is shrunk. -/
theorem unlock_end
    (wellFormed : WellFormed (before ++ po :: after))
    (same : po.holder = info.holder)
    (position : (info.start = po.start ∧ info.stop < po.stop) ∨
      (po.start < info.start ∧ info.stop = po.stop))
    (meets : info.start ≤ po.stop ∧ po.start ≤ info.stop) :
    Performs info none (before ++ po :: after)
      ((shrinkRange po info.start info.stop).1,
        before ++ (shrinkRange po info.start info.stop).2 :: after) := by
  have poMode := wellFormed.mode po (by simp)
  obtain ⟨piece, shrunk, holderEq, modeEq, above, pieceOrdered, below, _,
    bytes⟩ := shrinkRange_spec po info (by grind) meets
  rw [shrunk]
  apply performs_pieces [piece] wellFormed same (by grind) (by grind)
    (View.Tidy.singleton pieceOrdered)
  · simp only [List.mem_singleton, forall_eq]
    grind
  · intro byte value
    have pieceBytes := bytes byte
    simp only [List.mem_singleton, exists_eq_left]
    grind
  · exact List.perm_middle

/-- The request leaves a piece of the lock on both sides. -/
theorem unlock_middle (ordered : info.start ≤ info.stop)
    (wellFormed : WellFormed (before ++ po :: after))
    (same : po.holder = info.holder)
    (front : po.start < info.start) (back : info.stop < po.stop) :
    Performs info none (before ++ po :: after)
      (0, before ++ { po with stop := info.start - 1 } ::
        (after ++
          [{ pid := info.pid, owner := info.owner, start := info.stop + 1,
             stop := po.stop, ex := po.ex, nodeid := info.nodeid,
             syncing := false }])) := by
  have poMode := wellFormed.mode po (by simp)
  have holderEq : (info.nodeid, info.owner) = po.holder := same.symm
  apply performs_pieces
    [{ po with stop := info.start - 1 },
      { pid := info.pid, owner := info.owner, start := info.stop + 1,
        stop := po.stop, ex := po.ex, nodeid := info.nodeid,
        syncing := false }]
    wellFormed same (by grind) (by grind)
  · constructor
    · simp only [List.mem_cons, List.not_mem_nil, or_false, lockView]
      grind
    · simp only [List.pairwise_cons, List.mem_cons, List.not_mem_nil,
        or_false, View.Apart, lockView]
      grind
  · simp only [List.mem_cons, List.not_mem_nil, or_false, PosixLock.holder]
      at holderEq ⊢
    grind
  · intro byte value
    simp only [List.mem_cons, List.not_mem_nil, or_false, exists_eq_or_imp,
      exists_eq_left]
    grind
  · grind

theorem unlockLoop_performs (ordered : info.start ≤ info.stop) :
    ∀ after before : List PosixLock,
      WellFormed (before ++ after) →
      lockView.Clear before info.holder info.start info.stop →
      Performs info none (before ++ after)
        (unlockLoop [] info 0 before after) := by
  intro after
  induction after with
  | nil =>
      intro before wellFormed clear
      rw [List.append_nil] at wellFormed
      simp only [unlockLoop, List.append_nil]
      refine ⟨rfl, wellFormed, ?_⟩
      intro holder byte value
      have outside := clear.outside byte value
      grind
  | cons po after induction =>
      intro before wellFormed clear
      have pass (poClear : po.holder = info.holder →
          po.stop < info.start ∨ info.stop < po.start) :
          Performs info none (before ++ po :: after)
            (unlockLoop [] info 0 (before ++ [po]) after) := by
        have passed := induction (before ++ [po]) (by simpa using wellFormed)
          (View.clear_append clear (View.clear_singleton poClear))
        simpa using passed
      have poMode := wellFormed.mode po (by simp)
      rw [unlockLoop]
      split
      · rename_i other
        exact pass (clear_of_other other)
      · rename_i notOther
        have same := sameHolder_of_not notOther
        split
        · rename_i apart
          apply pass
          intro _
          simpa using apart
        · rename_i overlaps
          have meets : info.start ≤ po.stop ∧ po.start ≤ info.stop := by
            simpa using overlaps
          have position := overlapType_spec info.start info.stop
            po.start po.stop
          split <;> rename_i kind <;> rw [kind] at position <;>
            simp only at position
          · exact unlock_whole wellFormed same position.1 position.2
          · exact unlock_end wellFormed same position meets
          · simp only [addLock_ok]
            exact unlock_middle ordered wellFormed same position.1 position.2
          · have removed := induction before
              (wellFormed.sublist (by simp)) clear
            exact removed.of_inside same position.1 position.2
          · obtain ⟨piece, shrunk, holderEq, modeEq, above, pieceOrdered,
              below, pieceClear, bytes⟩ := shrinkRange_spec po info
                (by grind) meets
            rw [shrunk]
            obtain ⟨pieceWell, agree⟩ := cut_spec info piece wellFormed same
              holderEq modeEq above pieceOrdered below bytes
            have cut := induction _ pieceWell
              (View.clear_append clear
                (View.clear_singleton fun _ => pieceClear))
            exact cut.of_agree agree

end Loop

/-- `lock_internal` returns 0, keeps the table well formed and changes exactly
the requester's mode on the requested bytes. -/
theorem lockInternal_performs {info : Info} (wellFormed : WellFormed locks)
    (valid : info.Valid) :
    Performs info (some info.ex) locks (lockInternal [] locks info) :=
  lockLoop_performs valid locks [] wellFormed (by simp [View.Clear])

/-- `unlock_internal` returns 0, keeps the table well formed and removes
exactly the requester from the requested bytes. -/
theorem unlockInternal_performs {info : Info} (wellFormed : WellFormed locks)
    (ordered : info.start ≤ info.stop) :
    Performs info none locks (unlockInternal [] locks info) :=
  unlockLoop_performs ordered locks [] wellFormed (by simp [View.Clear])

end Dlm.Plock
