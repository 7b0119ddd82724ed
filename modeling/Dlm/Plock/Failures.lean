import Dlm.Plock.Checked
import Dlm.Plock.Entries

/-!
# Operations on the lock table that run out of memory

`lock_internal` and `unlock_internal` change the locks of the requester before
they know that every allocation succeeds.  When one fails they return an error,
and the table may already have changed.  The lemmas here tell from the request,
the locks and the results of `malloc` whether the map from bytes to modes is
still the one before the call.
-/

namespace Dlm.Plock

open Segments

/-- The tables give the same modes to every holder and byte. -/
def SameBytes (old new : List PosixLock) : Prop :=
  ∀ holder byte mode, Holds new holder byte mode ↔ Holds old holder byte mode

/-- The lock belongs to the requester and its range meets the request. -/
def Info.Overlaps (info : Info) (po : PosixLock) : Prop :=
  po.holder = info.holder ∧ info.start ≤ po.stop ∧ po.start ≤ info.stop

/-- The range of the lock includes the request. -/
def Info.Within (info : Info) (po : PosixLock) : Prop :=
  po.start ≤ info.start ∧ info.stop ≤ po.stop

/-- The lock sticks out of the request on both sides. -/
def Info.Inside (info : Info) (po : PosixLock) : Prop :=
  po.start < info.start ∧ info.stop < po.stop

/-- The first call of `malloc` succeeds. -/
def FirstMalloc (mallocs : Mallocs) : Prop :=
  (malloc mallocs).1 = true

/-- The second call of `malloc` succeeds. -/
def SecondMalloc (mallocs : Mallocs) : Prop :=
  (malloc (malloc mallocs).2).1 = true

instance (mallocs : Mallocs) : Decidable (FirstMalloc mallocs) :=
  inferInstanceAs (Decidable (_ = true))

/-- Locking does not damage this lock of the requester: it needs no memory for
it, or it fails before it has changed anything, or what it has already added
says nothing new. -/
def LockSpares (mallocs : Mallocs) (info : Info) (po : PosixLock) : Prop :=
  (info.Within po ∧ po.ex = info.ex) ∨
    (info.start = po.start ∧ info.stop = po.stop) ∨
    (info.Inside po ∧ (¬FirstMalloc mallocs ∨ SecondMalloc mallocs ∨
      notEx info.ex = po.ex)) ∨
    (¬info.Inside po ∧ FirstMalloc mallocs)

/-- Unlocking does not damage this lock of the requester. -/
def UnlockSpares (mallocs : Mallocs) (info : Info) (po : PosixLock) : Prop :=
  info.Inside po → FirstMalloc mallocs

theorem SameBytes.refl (locks : List PosixLock) : SameBytes locks locks :=
  fun _ _ _ => Iff.rfl

/-- Two tables differ when the old one alone covers a byte of a holder. -/
theorem SameBytes.of_held {old new : List PosixLock} {holder : Holder}
    {byte : UInt64} {mode : UInt8} (same : SameBytes old new)
    (held : Holds old holder byte mode) : Holds new holder byte mode :=
  (same holder byte mode).mpr held

theorem addLock_eq (mallocs : Mallocs) (locks : List PosixLock)
    (nodeid : Int32) (owner : UInt64) (pid : UInt32) (ex : UInt8)
    (start stop : UInt64) :
    addLock mallocs locks nodeid owner pid ex start stop =
      if FirstMalloc mallocs then
        (0, locks ++
          [{ pid := pid
             owner := owner
             start := start
             stop := stop
             ex := ex
             nodeid := nodeid
             syncing := false }], (malloc mallocs).2)
      else (-ENOMEM, locks, (malloc mallocs).2) := by
  cases mallocs with
  | nil => rfl
  | cons success later =>
      cases success with
      | false => rfl
      | true => rfl

section Loop

variable {mallocs : Mallocs} {info : Info}
variable {before after : List PosixLock} {po : PosixLock}

/-- A lock that includes the request is the only one of its holder that meets
it. -/
theorem WellFormed.alone (wellFormed : WellFormed (before ++ po :: after))
    (overlaps : info.Overlaps po) (within : info.Within po) :
    ∀ other ∈ before ++ after, ¬info.Overlaps other := by
  obtain ⟨_, apart, _⟩ := wellFormed.tidy.remove
  intro other member meets
  have separated := apart other member (meets.1.trans overlaps.1.symm)
  simp only [lockView] at separated
  obtain ⟨_, above, below⟩ := meets
  obtain ⟨inFront, behind⟩ := within
  grind

/-- A lock that does not include the request lies in it or is cut by it. -/
theorem overlapType_of_not_within (notWithin : ¬info.Within po) :
    overlapType info.start info.stop po.start po.stop = .case3 ∨
      overlapType info.start info.stop po.start po.stop = .case4 ∧
        ((po.start < info.start ∧ po.stop < info.stop) ∨
          (info.start < po.start ∧ info.stop < po.stop)) := by
  have position := overlapType_spec info.start info.stop po.start po.stop
  generalize overlapType info.start info.stop po.start po.stop = kind
    at position ⊢
  simp only [Info.Within] at notWithin
  cases kind with
  | case0 => grind
  | case1 => grind
  | case2 => grind
  | case3 => exact .inl rfl
  | case4 => exact .inr ⟨rfl, position⟩
  | invalid => exact position.elim

/-- No other lock of its holder covers a byte of a lock. -/
theorem WellFormed.not_covered (wellFormed : WellFormed (before ++ po :: after))
    {byte : UInt64} (front : po.start ≤ byte) (back : byte ≤ po.stop)
    {mode : UInt8} : ¬Holds (before ++ after) po.holder byte mode := by
  obtain ⟨_, apart, _⟩ := wellFormed.tidy.remove
  rintro ⟨other, member, sameHolder, otherFront, otherBack, _⟩
  have separated := apart other member sameHolder
  simp only [lockView] at separated otherFront otherBack
  grind

/-- Next to a lock that meets the request and does not include it, no other
one includes it. -/
theorem WellFormed.not_within (wellFormed : WellFormed (before ++ po :: after))
    (overlaps : info.Overlaps po) :
    ∀ other ∈ before ++ after, info.Overlaps other → ¬info.Within other := by
  obtain ⟨_, apart, _⟩ := wellFormed.tidy.remove
  intro other member meets within
  have separated := apart other member (meets.1.trans overlaps.1.symm)
  simp only [lockView] at separated
  obtain ⟨_, above, below⟩ := overlaps
  obtain ⟨inFront, behind⟩ := within
  grind

/-- What case 4 of `lock_internal` leaves of a lock does not meet the request
any more. -/
theorem cut_clear
    (position : (po.start < info.start ∧ po.stop < info.stop) ∨
      (info.start < po.start ∧ info.stop < po.stop)) :
    lockView.Clear
      [if po.start < info.start then { po with stop := info.start - 1 }
        else { po with start := info.stop + 1 }]
      info.holder info.start info.stop := by
  apply View.clear_singleton
  intro _
  simp only [lockView]
  split
  · grind
  · grind

/-- When no lock includes the request, `lock_internal` removes the requester
from all its bytes and only then tries to add the new lock. -/
theorem lockLoop_uncovered
    (uncovered : ∀ po ∈ after, info.Overlaps po → ¬info.Within po)
    (clear : lockView.Clear before info.holder info.start info.stop) :
    ((lockLoop mallocs info before after).1 = 0 ↔ FirstMalloc mallocs) ∧
      (¬FirstMalloc mallocs →
        lockView.Clear (lockLoop mallocs info before after).2 info.holder
          info.start info.stop) := by
  induction after generalizing before with
  | nil =>
      simp only [lockLoop, addLock_eq]
      split
      · rename_i success
        simp [success]
      · rename_i failure
        simp [failure, clear, ENOMEM]
  | cons po later induction =>
      obtain ⟨poUncovered, laterUncovered⟩ :=
        List.forall_mem_cons.mp uncovered
      have pass (poClear : po.holder = info.holder →
          po.stop < info.start ∨ info.stop < po.start) :=
        induction laterUncovered
          (View.clear_append clear (View.clear_singleton poClear))
      rw [lockLoop]
      split
      · rename_i other
        exact pass (clear_of_other other)
      · rename_i notOther
        have same := sameHolder_of_not notOther
        split
        · rename_i apart
          apply pass
          intro _
          simpa using apart
        · rename_i meets
          have overlaps : info.Overlaps po := ⟨same, by simpa using meets⟩
          rcases overlapType_of_not_within (poUncovered overlaps) with
            kind | ⟨kind, position⟩
          · rw [kind]
            exact induction laterUncovered clear
          · rw [kind]
            exact induction laterUncovered
              (View.clear_append clear (cut_clear position))

/-- A byte of the requester that the request takes away. -/
theorem held_in_request (overlaps : info.Overlaps po)
    (ordered : po.start ≤ po.stop) (range : info.start ≤ info.stop) :
    ∃ byte, info.start ≤ byte ∧ byte ≤ info.stop ∧
      lockView.At po info.holder byte po.ex := by
  obtain ⟨same, above, below⟩ := overlaps
  rcases UInt64.le_total po.start info.start with front | back
  · exact ⟨info.start, UInt64.le_refl _, range, same, front, above, rfl⟩
  · exact ⟨po.start, back, below, same, UInt64.le_refl _, ordered, rfl⟩

/-- A table cleared of the request has lost the bytes of a lock that met it. -/
theorem not_sameBytes_of_clear {locks result : List PosixLock}
    (member : po ∈ locks) (overlaps : info.Overlaps po)
    (ordered : po.start ≤ po.stop) (range : info.start ≤ info.stop)
    (clear : lockView.Clear result info.holder info.start info.stop) :
    ¬SameBytes locks result := by
  intro same
  obtain ⟨byte, above, below, covers⟩ :=
    held_in_request overlaps ordered range
  exact clear.outside byte po.ex (same.of_held ⟨po, member, covers⟩)
    ⟨above, below⟩

theorem lockSpares_of_not_within (outside : ¬info.Within po) :
    LockSpares mallocs info po ↔ FirstMalloc mallocs := by
  simp only [LockSpares, Info.Within, Info.Inside] at outside ⊢
  grind

/-- Case 1 has already given up a part of the lock when it asks for memory. -/
theorem lockCase1_spares_iff (wellFormed : WellFormed (before ++ po :: after))
    (overlaps : info.Overlaps po)
    (position : (info.start = po.start ∧ info.stop < po.stop) ∨
      (po.start < info.start ∧ info.stop = po.stop))
    (different : po.ex ≠ info.ex) :
    ((lockCase1 mallocs before po after info).1 ≠ 0 →
      SameBytes (before ++ po :: after)
        (lockCase1 mallocs before po after info).2) ↔
      FirstMalloc mallocs := by
  have within : info.Within po := by
    simp only [Info.Within]
    grind
  obtain ⟨sameHolder, above, below⟩ := overlaps
  obtain ⟨start2, stop2, shrunk⟩ : ∃ start2 stop2,
      shrinkRange2 po.start po.stop info.start info.stop =
        (0, start2, stop2) := by
    rcases position with ⟨front, back⟩ | ⟨front, back⟩
    · exact ⟨info.stop + 1, po.stop, by simp [shrinkRange2, front, back]⟩
    · exact ⟨po.start, info.start - 1, by simp [shrinkRange2, front]⟩
  simp only [lockCase1, shrunk, addLock_eq, ne_eq, not_true_eq_false, if_false]
  split
  · rename_i success
    simp [success]
  · rename_i failure
    simp only [ENOMEM, failure, iff_false]
    intro unchanged
    have same := unchanged (by decide)
    have held : Holds (before ++ po :: after) info.holder info.start po.ex :=
      ⟨po, by simp, sameHolder, within.1, above, rfl⟩
    -- At the first requested byte only the converted lock is left.
    have others := @WellFormed.not_covered _ _ _ wellFormed _ within.1 above
      po.ex
    rw [sameHolder] at others
    have converted := same.of_held held
    simp only [View.holds_append, View.holds_cons, lockView_at]
      at others converted
    grind

/-- A lock gives its bytes their only mode. -/
theorem WellFormed.mode_eq (wellFormed : WellFormed (before ++ po :: after))
    {byte : UInt64} {mode : UInt8} (front : po.start ≤ byte)
    (back : byte ≤ po.stop)
    (held : Holds (before ++ po :: after) po.holder byte mode) :
    mode = po.ex := by
  have others := @WellFormed.not_covered _ _ _ wellFormed _ front back mode
  simp only [View.holds_append, View.holds_cons, lockView_at] at others held
  grind

/-- A fragment of a lock beside the lock itself says nothing new exactly when
it has the mode of the lock. -/
theorem sameBytes_fragment_iff
    (wellFormed : WellFormed (before ++ po :: after)) (fragment : PosixLock)
    (sameHolder : fragment.holder = po.holder)
    (above : po.start ≤ fragment.start)
    (ordered : fragment.start ≤ fragment.stop)
    (below : fragment.stop ≤ po.stop) :
    SameBytes (before ++ po :: after) (before ++ po :: (after ++ [fragment])) ↔
      fragment.ex = po.ex := by
  have split : ∀ holder byte mode,
      Holds (before ++ po :: (after ++ [fragment])) holder byte mode ↔
        Holds (before ++ po :: after) holder byte mode ∨
          lockView.At fragment holder byte mode := by
    intro holder byte mode
    simp only [View.holds_append, View.holds_cons, View.holds_nil, or_false]
    grind
  constructor
  · intro same
    have held : Holds (before ++ po :: (after ++ [fragment])) po.holder
        fragment.start fragment.ex := by
      rw [split]
      exact .inr ⟨sameHolder, UInt64.le_refl _, ordered, rfl⟩
    exact wellFormed.mode_eq above (UInt64.le_trans ordered below)
      ((same _ _ _).mp held)
  · intro sameMode holder byte mode
    rw [split]
    constructor
    · rintro (old | ⟨holderEq, front, back, modeEq⟩)
      · exact old
      · refine ⟨po, by simp, sameHolder.symm.trans holderEq, ?_, ?_,
          sameMode.symm.trans modeEq⟩
        · exact UInt64.le_trans above front
        · exact UInt64.le_trans back below
    · exact .inl

/-- Case 2 changes the lock only after both allocations.  When the second one
fails, the front fragment is left in the table beside the lock. -/
theorem lockCase2_spares_iff (wellFormed : WellFormed (before ++ po :: after))
    (overlaps : info.Overlaps po) (inside : info.Inside po) :
    ((lockCase2 mallocs before po after info).1 ≠ 0 →
      SameBytes (before ++ po :: after)
        (lockCase2 mallocs before po after info).2) ↔
      (¬FirstMalloc mallocs ∨ SecondMalloc mallocs ∨
        notEx info.ex = po.ex) := by
  obtain ⟨front, back⟩ := inside
  simp only [lockCase2, addLock_eq]
  by_cases first : FirstMalloc mallocs
  · by_cases second : FirstMalloc (malloc mallocs).2
    · have secondMalloc : SecondMalloc mallocs := second
      simp [first, second, secondMalloc]
    · have secondMalloc : ¬SecondMalloc mallocs := second
      simp only [first, second, secondMalloc, if_true, if_false, ENOMEM,
        ne_eq, not_true_eq_false, false_or]
      obtain ⟨sameHolder, meetsFront, meetsBack⟩ := overlaps
      have fragment := sameBytes_fragment_iff wellFormed
        (requested info (notEx info.ex) po.start (info.start - 1))
        sameHolder.symm (UInt64.le_refl _) (by simp only [requested]; grind)
        (by simp only [requested]; grind)
      simpa [requested] using fragment
  · simp [first, ENOMEM, SameBytes.refl]

theorem overlapType_case3 {s1 e1 s2 e2 : UInt64}
    (kind : overlapType s1 e1 s2 e2 = .case3) : ¬(s2 ≤ s1 ∧ e1 ≤ e2) := by
  unfold overlapType at kind
  grind

/-- After a lock that does not include the request has been removed or cut,
everything depends on the allocation at the end. -/
theorem lockLoop_cut_spares_iff {passed : List PosixLock}
    (wellFormed : WellFormed (before ++ po :: after))
    (overlaps : info.Overlaps po) (outside : ¬info.Within po)
    (range : info.start ≤ info.stop)
    (clear : lockView.Clear passed info.holder info.start info.stop) :
    ((lockLoop mallocs info passed after).1 ≠ 0 →
      SameBytes (before ++ po :: after)
        (lockLoop mallocs info passed after).2) ↔
      ∀ other ∈ po :: after, info.Overlaps other →
        LockSpares mallocs info other := by
  have notWithin := wellFormed.not_within overlaps
  obtain ⟨returned, cleared⟩ := @lockLoop_uncovered mallocs info _ _
    (fun other member => notWithin other (List.mem_append_right _ member))
    clear
  have spares : (∀ other ∈ po :: after, info.Overlaps other →
      LockSpares mallocs info other) ↔ FirstMalloc mallocs := by
    constructor
    · intro all
      exact (lockSpares_of_not_within outside).mp (all po (by simp) overlaps)
    · intro success other member meets
      rcases List.mem_cons.mp member with rfl | late
      · exact (lockSpares_of_not_within outside).mpr success
      · exact (lockSpares_of_not_within (notWithin other
          (List.mem_append_right _ late) meets)).mpr success
  rw [spares]
  by_cases success : FirstMalloc mallocs
  · simp [success, returned.mpr success]
  · have ordered : po.start ≤ po.stop := wellFormed.tidy.ordered po (by simp)
    have member : po ∈ before ++ po :: after := by simp
    have changed := not_sameBytes_of_clear member overlaps ordered range
      (cleared success)
    simp [success, returned, changed]

/-- A failed `lock_internal` leaves the bytes alone exactly when it spares
every lock of the requester that it meets. -/
theorem lockLoop_spares_iff (wellFormed : WellFormed (before ++ after))
    (clear : lockView.Clear before info.holder info.start info.stop) :
    ((lockLoop mallocs info before after).1 ≠ 0 →
      SameBytes (before ++ after) (lockLoop mallocs info before after).2) ↔
      ∀ po ∈ after, info.Overlaps po → LockSpares mallocs info po := by
  induction after generalizing before with
  | nil =>
      simp only [lockLoop, addLock_eq]
      split
      · simp
      · simp [SameBytes.refl]
  | cons po later induction =>
      have pass (poClear : po.holder = info.holder →
          po.stop < info.start ∨ info.stop < po.start) :
          ((lockLoop mallocs info (before ++ [po]) later).1 ≠ 0 →
            SameBytes (before ++ po :: later)
              (lockLoop mallocs info (before ++ [po]) later).2) ↔
            ∀ other ∈ po :: later, info.Overlaps other →
              LockSpares mallocs info other := by
        have passed := @induction (before ++ [po])
          (by simpa using wellFormed)
          (View.clear_append clear (View.clear_singleton poClear))
        have apart : ¬info.Overlaps po := by
          rintro ⟨same, front, back⟩
          have := poClear same
          grind
        rw [List.append_assoc, List.singleton_append] at passed
        rw [passed]
        simp [apart]
      have ordered : po.start ≤ po.stop := wellFormed.tidy.ordered po (by simp)
      rw [lockLoop]
      split
      · rename_i other
        exact pass (clear_of_other other)
      · rename_i notOther
        have same := sameHolder_of_not notOther
        split
        · rename_i apart
          apply pass
          intro _
          simpa using apart
        · rename_i meets
          have overlaps : info.Overlaps po := ⟨same, by simpa using meets⟩
          -- A lock that includes the request decides alone.
          have alone (within : info.Within po) :
              (∀ other ∈ po :: later, info.Overlaps other →
                LockSpares mallocs info other) ↔
                LockSpares mallocs info po := by
            have others := wellFormed.alone overlaps within
            simp only [List.mem_append] at others
            simp only [List.forall_mem_cons, overlaps, true_implies]
            grind
          have position := overlapType_spec info.start info.stop
            po.start po.stop
          have larger := @overlapType_case3 info.start info.stop
            po.start po.stop
          generalize overlapType info.start info.stop po.start po.stop = kind
            at position larger ⊢
          have meetsFront := overlaps.2.1
          have meetsBack := overlaps.2.2
          cases kind with
          | case0 =>
              simp only at position ⊢
              have within : info.Within po := by
                simp only [Info.Within]
                grind
              have spared : LockSpares mallocs info po := .inr (.inl position)
              simp only [alone within, spared, iff_true]
              split
              · simp
              · simp
          | case1 =>
              simp only at position ⊢
              have within : info.Within po := by
                simp only [Info.Within]
                grind
              rw [alone within]
              split
              · rename_i equal
                simp [LockSpares, within, equal]
              · rename_i different
                rw [lockCase1_spares_iff wellFormed overlaps position different]
                simp only [LockSpares, Info.Inside]
                grind
          | case2 =>
              simp only at position ⊢
              have inside : info.Inside po := position
              have within : info.Within po := by
                simp only [Info.Within]
                grind
              rw [alone within]
              split
              · rename_i equal
                simp [LockSpares, within, equal]
              · rename_i different
                rw [lockCase2_spares_iff wellFormed overlaps inside]
                simp only [LockSpares, inside]
                grind
          | case3 =>
              simp only at position
              apply lockLoop_cut_spares_iff wellFormed overlaps (larger rfl) _
                clear
              grind
          | case4 =>
              simp only at position
              apply lockLoop_cut_spares_iff wellFormed overlaps
              · simp only [Info.Within]
                grind
              · grind
              · exact View.clear_append clear (cut_clear position)
          | invalid => exact position.elim

/-- When no lock includes the request, `unlock_internal` asks for no memory. -/
theorem unlockLoop_uncovered
    (uncovered : ∀ po ∈ after, info.Overlaps po → ¬info.Within po) :
    (unlockLoop mallocs info 0 before after).1 = 0 := by
  induction after generalizing before with
  | nil => rfl
  | cons po later induction =>
      obtain ⟨poUncovered, laterUncovered⟩ :=
        List.forall_mem_cons.mp uncovered
      rw [unlockLoop]
      split
      · exact induction laterUncovered
      · rename_i notOther
        have same := sameHolder_of_not notOther
        split
        · exact induction laterUncovered
        · rename_i overlap
          have meets : info.start ≤ po.stop ∧ po.start ≤ info.stop := by
            simpa using overlap
          rcases overlapType_of_not_within (poUncovered ⟨same, meets⟩) with
            kind | ⟨kind, position⟩
          · rw [kind]
            exact induction laterUncovered
          · obtain ⟨piece, shrunk, _⟩ :=
              shrinkRange_spec po info (by grind) meets
            simp only [kind, shrunk]
            exact induction laterUncovered

/-- Case 2 of `unlock_internal` gives up the back of the lock also when there
is no memory for the lock that is to keep it. -/
theorem unlockCase2_spares_iff (wellFormed : WellFormed (before ++ po :: after))
    (overlaps : info.Overlaps po) (inside : info.Inside po) :
    ((addLock mallocs after info.nodeid info.owner info.pid po.ex
        (info.stop + 1) po.stop).1 ≠ 0 →
      SameBytes (before ++ po :: after)
        (before ++ { po with stop := info.start - 1 } ::
          (addLock mallocs after info.nodeid info.owner info.pid po.ex
            (info.stop + 1) po.stop).2.1)) ↔
      ∀ other ∈ po :: after, info.Overlaps other →
        UnlockSpares mallocs info other := by
  have spares : (∀ other ∈ po :: after, info.Overlaps other →
      UnlockSpares mallocs info other) ↔ FirstMalloc mallocs := by
    constructor
    · intro all
      exact all po (by simp) overlaps inside
    · intro success other _ _ _
      exact success
  rw [spares, addLock_eq]
  split
  · rename_i success
    simp [success]
  · rename_i failure
    simp only [failure, iff_false, ENOMEM]
    intro unchanged
    have same := unchanged (by decide)
    obtain ⟨sameHolder, above, below⟩ := overlaps
    obtain ⟨front, back⟩ := inside
    have start : po.start ≤ info.start := UInt64.le_of_lt front
    have held : Holds (before ++ po :: after) info.holder info.start po.ex :=
      ⟨po, by simp, sameHolder, start, above, rfl⟩
    have rest := @WellFormed.not_covered _ _ _ wellFormed _ start above po.ex
    rw [sameHolder] at rest
    have kept := same.of_held held
    simp only [View.holds_append, View.holds_cons, lockView_at] at rest kept
    grind

/-- A failed `unlock_internal` leaves the bytes alone exactly when it spares
every lock of the requester that it meets. -/
theorem unlockLoop_spares_iff (wellFormed : WellFormed (before ++ after)) :
    ((unlockLoop mallocs info 0 before after).1 ≠ 0 →
      SameBytes (before ++ after) (unlockLoop mallocs info 0 before after).2) ↔
      ∀ po ∈ after, info.Overlaps po → UnlockSpares mallocs info po := by
  induction after generalizing before with
  | nil => simp [unlockLoop]
  | cons po later induction =>
      have pass (apart : ¬info.Overlaps po) :
          ((unlockLoop mallocs info 0 (before ++ [po]) later).1 ≠ 0 →
            SameBytes (before ++ po :: later)
              (unlockLoop mallocs info 0 (before ++ [po]) later).2) ↔
            ∀ other ∈ po :: later, info.Overlaps other →
              UnlockSpares mallocs info other := by
        have passed := @induction (before ++ [po]) (by simpa using wellFormed)
        rw [List.append_assoc, List.singleton_append] at passed
        rw [passed]
        simp [apart]
      rw [unlockLoop]
      split
      · rename_i other
        apply pass
        rintro ⟨same, _⟩
        simp only [PosixLock.holder, Info.holder] at same
        grind
      · rename_i notOther
        have same := sameHolder_of_not notOther
        split
        · rename_i apart
          apply pass
          rintro ⟨_, meets⟩
          simp only [Bool.not_eq_true', rangesOverlap_eq_false_iff] at apart
          grind
        · rename_i overlap
          have meets : info.start ≤ po.stop ∧ po.start ≤ info.stop := by
            simpa using overlap
          have overlaps : info.Overlaps po := ⟨same, meets⟩
          have others : ∀ other ∈ later, info.Overlaps other →
              ¬info.Inside other := by
            intro other member otherMeets inside
            apply wellFormed.not_within overlaps other
              (List.mem_append_right _ member) otherMeets
            exact ⟨UInt64.le_of_lt inside.1, UInt64.le_of_lt inside.2⟩
          have harmless (outside : ¬info.Inside po) :
              ∀ other ∈ po :: later, info.Overlaps other →
                UnlockSpares mallocs info other := by
            intro other member otherMeets inside
            rcases List.mem_cons.mp member with rfl | late
            · exact (outside inside).elim
            · exact (others other late otherMeets inside).elim
          have uncovered (outside : ¬info.Within po) {passed : List PosixLock} :
              (unlockLoop mallocs info 0 passed later).1 = 0 := by
            apply unlockLoop_uncovered
            intro other member
            exact wellFormed.not_within overlaps other
              (List.mem_append_right _ member)
          have position := overlapType_spec info.start info.stop
            po.start po.stop
          have larger := @overlapType_case3 info.start info.stop
            po.start po.stop
          generalize overlapType info.start info.stop po.start po.stop = kind
            at position larger ⊢
          cases kind with
          | case0 =>
              simp only at position ⊢
              have outside : ¬info.Inside po := by
                simp only [Info.Inside]
                grind
              exact iff_of_true (fun failed => (failed rfl).elim)
                (harmless outside)
          | case1 =>
              simp only at position ⊢
              have outside : ¬info.Inside po := by
                simp only [Info.Inside]
                grind
              obtain ⟨piece, shrunk, _⟩ :=
                shrinkRange_spec po info (by grind) meets
              rw [shrunk]
              exact iff_of_true (fun failed => (failed rfl).elim)
                (harmless outside)
          | case2 =>
              simp only at position ⊢
              exact unlockCase2_spares_iff wellFormed overlaps position
          | case3 =>
              simp only at position ⊢
              have outside : ¬info.Inside po := by
                simp only [Info.Inside]
                grind
              exact iff_of_true
                (fun failed => (failed (uncovered (larger rfl))).elim)
                (harmless outside)
          | case4 =>
              simp only at position ⊢
              have outside : ¬info.Within po := by
                simp only [Info.Within]
                grind
              obtain ⟨piece, shrunk, _⟩ :=
                shrinkRange_spec po info (by grind) meets
              have notInside : ¬info.Inside po := by
                simp only [Info.Inside]
                grind
              rw [shrunk]
              exact iff_of_true
                (fun failed => (failed (uncovered outside)).elim)
                (harmless notInside)
          | invalid => exact position.elim

end Loop

/-- Whether a failed operation has left the map from bytes to modes as it was
is decided by the locks of the requester that the request meets. -/
theorem failed_operation_spares_iff (mallocs : Mallocs)
    (locks : List PosixLock) (info : Info) (wellFormed : WellFormed locks) :
    (((lockInternal mallocs locks info).1 ≠ 0 →
        SameBytes locks (lockInternal mallocs locks info).2) ↔
      ∀ po ∈ locks, info.Overlaps po → LockSpares mallocs info po) ∧
      (((unlockInternal mallocs locks info).1 ≠ 0 →
        SameBytes locks (unlockInternal mallocs locks info).2) ↔
      ∀ po ∈ locks, info.Overlaps po → UnlockSpares mallocs info po) := by
  constructor
  · exact @lockLoop_spares_iff mallocs info [] locks wellFormed
      (by simp [View.Clear])
  · exact @unlockLoop_spares_iff mallocs info [] locks wellFormed

/-- The holder of a whole file unlocks bytes in the middle and there is no
memory: the error is returned, and the end of the file is unlocked. -/
theorem failed_unlock_drops_bytes :
    WellFormed [wholeFile] ∧
      (unlockInternal [false] [wholeFile] middleBytes).1 = -ENOMEM ∧
      ¬SameBytes [wholeFile]
        (unlockInternal [false] [wholeFile] middleBytes).2 := by
  refine ⟨wholeFile_wellFormed, by decide, ?_⟩
  intro same
  have held : Holds [wholeFile] wholeFile.holder 100 1 :=
    ⟨wholeFile, by simp, rfl, by decide, by decide, rfl⟩
  obtain ⟨po, member, _, _, below, _⟩ := same.of_held held
  rw [show (unlockInternal [false] [wholeFile] middleBytes).2 =
    [{ wholeFile with stop := 9 }] by decide] at member
  rw [List.mem_singleton.mp member] at below
  exact absurd below (by decide)

/-- A failed allocation in front of both fragments leaves the table alone. -/
theorem failed_lock_spares_whole_file :
    (lockInternal [false] [wholeFile] middleBytes).1 = -ENOMEM ∧
      LockSpares [false] middleBytes wholeFile ∧
      SameBytes [wholeFile]
        (lockInternal [false] [wholeFile] middleBytes).2 := by
  have failed : (lockInternal [false] [wholeFile] middleBytes).1 =
      -ENOMEM := by
    decide
  have spares : LockSpares [false] middleBytes wholeFile := by
    have inside : middleBytes.Inside wholeFile := ⟨by decide, by decide⟩
    exact .inr (.inr (.inl ⟨inside, .inl (by decide)⟩))
  have same := (failed_operation_spares_iff [false] [wholeFile] middleBytes
    wholeFile_wellFormed).1.mpr (by
      intro po member _
      rw [List.mem_singleton.mp member]
      exact spares)
  refine ⟨failed, spares, same ?_⟩
  rw [failed]
  decide

end Dlm.Plock
