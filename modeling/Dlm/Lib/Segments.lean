import Mathlib.Data.List.Basic

/-!
# Lists of labelled segments

A list of entries, each of which gives one key a value on a closed segment of
a linear order, read as a relation between keys, points and values.  `Tidy`
lists, in which the segments of a key are pairwise apart, are kept tidy by the
edits a caller makes in place: shrinking an entry, replacing it by pieces of
it, removing it and appending a new one.
-/

namespace Dlm.Segments

/-- How an entry is read as a labelled segment. -/
structure View (E K α V : Type) where
  key : E → K
  lo : E → α
  hi : E → α
  val : E → V

section

variable {E K α V : Type} [LE α] [LT α] (view : View E K α V)

/-- The entry gives the key this value at this point. -/
def View.At (entry : E) (key : K) (point : α) (value : V) : Prop :=
  view.key entry = key ∧ view.lo entry ≤ point ∧ point ≤ view.hi entry ∧
    view.val entry = value

/-- Some entry gives the key this value at this point. -/
def View.Holds (entries : List E) (key : K) (point : α) (value : V) : Prop :=
  ∃ entry ∈ entries, view.At entry key point value

/-- No entry of the key meets the segment. -/
def View.Clear (entries : List E) (key : K) (lo hi : α) : Prop :=
  ∀ entry ∈ entries, view.key entry = key →
    view.hi entry < lo ∨ hi < view.lo entry

/-- The two entries do not meet when they have the same key. -/
def View.Apart (first second : E) : Prop :=
  view.key first = view.key second →
    view.hi first < view.lo second ∨ view.hi second < view.lo first

structure View.Tidy (entries : List E) : Prop where
  ordered : ∀ entry ∈ entries, view.lo entry ≤ view.hi entry
  apart : entries.Pairwise view.Apart

/-- Whether a key has a value at a point is the same before and after, except
that the key has exactly `value` on the segment. -/
def Written (old new : K → α → V → Prop) (key : K) (lo hi : α)
    (value : Option V) : Prop :=
  ∀ someKey point someValue, new someKey point someValue ↔
    (someKey = key ∧ lo ≤ point ∧ point ≤ hi ∧ value = some someValue) ∨
      (¬(someKey = key ∧ lo ≤ point ∧ point ≤ hi) ∧
        old someKey point someValue)

end

/-- Only what is old outside the segment matters. -/
theorem Written.of_agree {K α V : Type} [LE α] {old other new : K → α → V → Prop}
    {key : K} {lo hi : α} {value : Option V}
    (written : Written other new key lo hi value)
    (agree : ∀ someKey point someValue,
      ¬(someKey = key ∧ lo ≤ point ∧ point ≤ hi) →
        (old someKey point someValue ↔ other someKey point someValue)) :
    Written old new key lo hi value := by
  intro someKey point someValue
  have same := agree someKey point someValue
  rw [written someKey point someValue]
  grind

namespace View

variable {E K α V : Type} {view : View E K α V}

variable {key : K} {point lo hi : α} {value : V} {entry : E}
  {first second entries others before : List E}

section Covering

variable [LE α]

theorem holds_nil :
    ¬view.Holds [] key point value := by
  simp [Holds]

theorem holds_append :
    view.Holds (first ++ second) key point value ↔
      view.Holds first key point value ∨
        view.Holds second key point value := by
  simp only [Holds, List.mem_append, or_and_right, exists_or]

theorem holds_cons {later : List E} :
    view.Holds (entry :: later) key point value ↔
      view.At entry key point value ∨ view.Holds later key point value := by
  simp only [Holds, List.mem_cons, exists_eq_or_imp]

theorem holds_perm (same : entries.Perm others) :
    view.Holds entries key point value ↔
      view.Holds others key point value := by
  simp only [Holds, same.mem_iff]

end Covering

section Separation

variable [LT α]

theorem Apart.symm {first second : E} (apart : view.Apart first second) :
    view.Apart second first := by
  intro same
  exact (apart same.symm).symm

theorem clear_append (firstClear : view.Clear first key lo hi)
    (secondClear : view.Clear second key lo hi) :
    view.Clear (first ++ second) key lo hi := by
  intro entry member
  rcases List.mem_append.mp member with inFirst | inSecond
  · exact firstClear entry inFirst
  · exact secondClear entry inSecond

theorem clear_singleton (clear : view.key entry = key →
      view.hi entry < lo ∨ hi < view.lo entry) :
    view.Clear [entry] key lo hi := by
  intro other member
  rw [List.mem_singleton.mp member]
  exact clear

end Separation

variable [LE α] [LT α]

theorem Tidy.nil : view.Tidy [] :=
  ⟨by simp, List.Pairwise.nil⟩

/-- Taking an entry out leaves the others tidy and apart from it. -/
theorem Tidy.remove {after : List E}
    (tidy : view.Tidy (before ++ entry :: after)) :
    view.Tidy (before ++ after) ∧
      (∀ other ∈ before ++ after, view.Apart other entry) ∧
      view.lo entry ≤ view.hi entry := by
  have parts := List.pairwise_append.mp tidy.apart
  have tail := List.pairwise_cons.mp parts.2.1
  refine ⟨⟨?_, ?_⟩, ?_, tidy.ordered entry (by simp)⟩
  · intro other member
    apply tidy.ordered other
    rcases List.mem_append.mp member with early | late
    · simp [early]
    · simp [late]
  · apply List.pairwise_append.mpr
    refine ⟨parts.1, tail.2, ?_⟩
    intro first firstMember second secondMember
    exact parts.2.2 first firstMember second (by simp [secondMember])
  · intro other member
    rcases List.mem_append.mp member with early | late
    · exact parts.2.2 other early entry (by simp)
    · exact (tail.1 other late).symm

theorem Tidy.perm (tidy : view.Tidy entries) (same : others.Perm entries) :
    view.Tidy others := by
  constructor
  · intro entry member
    exact tidy.ordered entry (same.subset member)
  · exact (same.pairwise_iff Apart.symm).mpr tidy.apart

theorem Tidy.append (firstTidy : view.Tidy first)
    (secondTidy : view.Tidy second)
    (apart : ∀ entry ∈ first, ∀ other ∈ second, view.Apart entry other) :
    view.Tidy (first ++ second) := by
  constructor
  · intro entry member
    rcases List.mem_append.mp member with early | late
    · exact firstTidy.ordered entry early
    · exact secondTidy.ordered entry late
  · exact List.pairwise_append.mpr
      ⟨firstTidy.apart, secondTidy.apart, apart⟩

theorem Tidy.singleton (ordered : view.lo entry ≤ view.hi entry) :
    view.Tidy [entry] :=
  ⟨by simpa using ordered, List.pairwise_singleton _ _⟩

theorem Tidy.sublist {fewer : List E} (tidy : view.Tidy entries)
    (sublist : fewer.Sublist entries) : view.Tidy fewer :=
  ⟨fun entry member => tidy.ordered entry (sublist.mem member),
    tidy.apart.sublist sublist⟩

section Linear

variable [Std.IsLinearOrder α] [Std.LawfulOrderLT α]

/-- A piece of an entry is apart from whatever the entry is apart from. -/
theorem Apart.shrink {other piece : E} (apart : view.Apart other entry)
    (sameKey : view.key piece = view.key entry)
    (above : view.lo entry ≤ view.lo piece)
    (below : view.hi piece ≤ view.hi entry) :
    view.Apart other piece := by
  intro same
  have separated := apart (same.trans sameKey)
  grind

/-- A clear list gives the key nothing on the segment. -/
theorem Clear.outside (clear : view.Clear entries key lo hi) (point : α)
    (value : V) (holds : view.Holds entries key point value) :
    ¬(lo ≤ point ∧ point ≤ hi) := by
  obtain ⟨entry, member, sameKey, above, below, _⟩ := holds
  have separated := clear entry member sameKey
  grind

/-- Entries apart from one that covers a segment are clear of the segment. -/
theorem clear_of_apart (apart : ∀ other ∈ entries, view.Apart other entry)
    (above : view.lo entry ≤ lo) (below : hi ≤ view.hi entry) :
    view.Clear entries (view.key entry) lo hi := by
  intro other member sameKey
  have separated := apart other member sameKey
  grind

/-- Replacing an entry by pieces of it that give its key `value` on a segment
and the entry's own value elsewhere: the table stays tidy, and the key is
written on the segment. -/
theorem Tidy.replace {after pieces result : List E}
    {value : Option V} (tidy : view.Tidy (before ++ entry :: after))
    (piecesTidy : view.Tidy pieces)
    (within : ∀ piece ∈ pieces, view.key piece = view.key entry ∧
      view.lo entry ≤ view.lo piece ∧ view.hi piece ≤ view.hi entry)
    (above : view.lo entry ≤ lo) (below : hi ≤ view.hi entry)
    (bytes : ∀ point someValue,
      view.Holds pieces (view.key entry) point someValue ↔
        (lo ≤ point ∧ point ≤ hi ∧ value = some someValue) ∨
          (¬(lo ≤ point ∧ point ≤ hi) ∧
            view.At entry (view.key entry) point someValue))
    (arranged : result.Perm (pieces ++ (before ++ after))) :
    view.Tidy result ∧
      Written (view.Holds (before ++ entry :: after)) (view.Holds result)
        (view.key entry) lo hi value := by
  obtain ⟨othersTidy, apart, _⟩ := tidy.remove
  have clear := clear_of_apart apart above below
  constructor
  · refine (piecesTidy.append othersTidy ?_).perm arranged
    intro piece pieceMember other otherMember
    obtain ⟨sameKey, pieceAbove, pieceBelow⟩ := within piece pieceMember
    exact ((apart other otherMember).shrink
      sameKey pieceAbove pieceBelow).symm
  · intro someKey point someValue
    have piecesKey : view.Holds pieces someKey point someValue →
        someKey = view.key entry := by
      rintro ⟨piece, pieceMember, keyEq, _⟩
      exact keyEq.symm.trans (within piece pieceMember).1
    have entryKey : view.At entry someKey point someValue →
        someKey = view.key entry := fun at_ => at_.1.symm
    have outside := clear.outside point someValue
    have piecesBytes := bytes point someValue
    rw [holds_perm arranged]
    simp only [holds_append, holds_cons] at outside ⊢
    by_cases same : someKey = view.key entry
    · subst same
      grind
    · grind

end Linear

end View

end Dlm.Segments
