import Dlm.Cpg.Protocol

/-!
# The minimum of the protocol versions

`pick_min_protocol` finds the least major number, then the least minor number
among the versions with that major number, and then the least patch number
among those with both, with zero for a number not yet found.  No version has
zeros, so this is the least version in the lexicographic order.
-/

namespace Dlm.Cpg

variable {first second : ProtocolVersion}

/-- The lexicographic order of the versions. -/
def ProtocolVersion.Le (first second : ProtocolVersion) : Prop :=
  first.major < second.major ∨
    first.major = second.major ∧
      (first.minor < second.minor ∨
        first.minor = second.minor ∧ first.patch ≤ second.patch)

/-- The numbers of a version without its flags. -/
def ProtocolVersion.numbers (version : ProtocolVersion) :
    UInt16 × UInt16 × UInt16 :=
  (version.major, version.minor, version.patch)

/-- The version is the least of some versions, with the flags cleared. -/
structure LeastVersion (versions : List ProtocolVersion)
    (least : ProtocolVersion) : Prop where
  flags : least.flags = 0
  member : ∃ version ∈ versions, version.numbers = least.numbers
  le : ∀ version ∈ versions, least.Le version

theorem ProtocolVersion.Le.antisymm (le : first.Le second)
    (ge : second.Le first) :
    first.numbers = second.numbers := by
  simp only [ProtocolVersion.Le, ProtocolVersion.numbers,
    UInt16.lt_iff_toNat_lt, UInt16.le_iff_toNat_le, Prod.mk.injEq,
    ← UInt16.toNat_inj] at le ge ⊢
  omega

theorem ProtocolVersion.Le.of_numbers {other : ProtocolVersion}
    (le : first.Le other) (same : other.numbers = second.numbers) :
    first.Le second := by
  obtain ⟨major, rest⟩ := Prod.mk.inj same
  obtain ⟨minor, patch⟩ := Prod.mk.inj rest
  unfold ProtocolVersion.Le at le ⊢
  rw [← major, ← minor, ← patch]
  exact le

/-- There is only one least version. -/
theorem LeastVersion.unique {versions others : List ProtocolVersion}
    (one : LeastVersion versions first) (two : LeastVersion others second)
    (same : ∀ version, version ∈ versions ↔ version ∈ others) :
    first = second := by
  obtain ⟨left, leftMember, leftSame⟩ := one.member
  obtain ⟨right, rightMember, rightSame⟩ := two.member
  have le : first.Le second :=
    (one.le right ((same right).mpr rightMember)).of_numbers rightSame
  have ge : second.Le first :=
    (two.le left ((same left).mp leftMember)).of_numbers leftSame
  obtain ⟨major, rest⟩ := Prod.mk.inj (le.antisymm ge)
  obtain ⟨minor, patch⟩ := Prod.mk.inj rest
  have flags := one.flags.trans two.flags.symm
  cases first
  cases second
  simp_all

section Fold

theorem pickNumber_spec {number : UInt16} (least : UInt16)
    (valid : number ≠ 0) :
    pickNumber least number ≠ 0 ∧ pickNumber least number ≤ number ∧
      (least ≠ 0 → pickNumber least number ≤ least) ∧
      (pickNumber least number = least ∨
        pickNumber least number = number) := by
  unfold pickNumber
  split
  · rename_i taken
    refine ⟨valid, UInt16.le_refl _, fun set => ?_, .inr rfl⟩
    exact UInt16.le_of_lt (taken.resolve_left set)
  · rename_i kept
    obtain ⟨set, greater⟩ := not_or.mp kept
    exact ⟨set, UInt16.not_lt.mp greater, fun _ => UInt16.le_refl _, .inl rfl⟩

variable {among : ProtocolVersion → Prop} [DecidablePred among]
  {number : ProtocolVersion → UInt16}

/-- A loop over the versions that concern it. -/
def pickLoop (among : ProtocolVersion → Prop) [DecidablePred among]
    (number : ProtocolVersion → UInt16) (least : UInt16)
    (versions : List ProtocolVersion) : UInt16 :=
  versions.foldl (fun least v =>
    if among v then pickNumber least (number v) else least) least

/-- What the loop leaves is the number it began with or that of a version, and
no greater than any of these. -/
theorem pickLoop_spec (versions : List ProtocolVersion) (least : UInt16)
    (valid : ∀ v ∈ versions, number v ≠ 0) :
    (least ≠ 0 → pickLoop among number least versions ≠ 0 ∧
        pickLoop among number least versions ≤ least) ∧
      (∀ v ∈ versions, among v →
        pickLoop among number least versions ≠ 0 ∧
          pickLoop among number least versions ≤ number v) ∧
      (pickLoop among number least versions = least ∨
        ∃ v ∈ versions, among v ∧
          number v = pickLoop among number least versions) := by
  induction versions generalizing least with
  | nil =>
      refine ⟨fun set => ⟨set, UInt16.le_refl least⟩, ?_, .inl rfl⟩
      intro v member
      cases member
  | cons v later induction =>
      obtain ⟨first, rest⟩ := List.forall_mem_cons.mp valid
      by_cases concerned : among v
      · have step : pickLoop among number least (v :: later) =
            pickLoop among number (pickNumber least (number v)) later := by
          simp [pickLoop, concerned]
        rw [step]
        obtain ⟨set, small, smaller, taken⟩ := pickNumber_spec least first
        obtain ⟨kept, lower, origin⟩ :=
          induction (pickNumber least (number v)) rest
        obtain ⟨nonzero, below⟩ := kept set
        refine ⟨fun known => ⟨nonzero,
          UInt16.le_trans below (smaller known)⟩, ?_, ?_⟩
        · intro w member within
          rcases List.mem_cons.mp member with rfl | old
          · exact ⟨nonzero, UInt16.le_trans below small⟩
          · exact lower w old within
        · rcases origin with same | ⟨w, member, within, same⟩
          · rcases taken with before | new
            · exact .inl (same.trans before)
            · exact .inr ⟨v, List.mem_cons_self, concerned,
                (same.trans new).symm⟩
          · exact .inr ⟨w, List.mem_cons_of_mem _ member, within, same⟩
      · have step : pickLoop among number least (v :: later) =
            pickLoop among number least later := by
          simp [pickLoop, concerned]
        rw [step]
        obtain ⟨kept, lower, origin⟩ := induction least rest
        refine ⟨kept, ?_, ?_⟩
        · intro w member within
          rcases List.mem_cons.mp member with rfl | old
          · exact (concerned within).elim
          · exact lower w old within
        · rcases origin with same | ⟨w, member, within, same⟩
          · exact .inl same
          · exact .inr ⟨w, List.mem_cons_of_mem _ member, within, same⟩

/-- A loop that concerns some version finds the least number. -/
theorem pickLoop_least {versions : List ProtocolVersion}
    (valid : ∀ v ∈ versions, number v ≠ 0)
    (some_ : ∃ v ∈ versions, among v) :
    (∃ v ∈ versions, among v ∧
        number v = pickLoop among number 0 versions) ∧
      ∀ v ∈ versions, among v →
        pickLoop among number 0 versions ≤ number v := by
  obtain ⟨_, lower, origin⟩ := @pickLoop_spec among _ number versions 0 valid
  refine ⟨?_, fun v member within => (lower v member within).2⟩
  obtain ⟨v, member, within⟩ := some_
  exact origin.resolve_left (lower v member within).1

end Fold

section Pick

variable {versions : List ProtocolVersion}

theorem pickMin_major :
    (pickMin versions).major =
      pickLoop (fun _ => True) (·.major) 0 versions := by
  simp [pickMin, pickLoop]

theorem pickMin_minor :
    (pickMin versions).minor =
      pickLoop ((pickMin versions).major = ·.major) (·.minor) 0 versions :=
  rfl

theorem pickMin_patch :
    (pickMin versions).patch =
      pickLoop (fun v => (pickMin versions).major = v.major ∧
        (pickMin versions).minor = v.minor) (·.patch) 0 versions :=
  rfl

theorem not_invalid {version : ProtocolVersion}
    (valid : version.invalid = false) :
    version.major ≠ 0 ∧ version.minor ≠ 0 ∧ version.patch ≠ 0 := by
  simpa [ProtocolVersion.invalid, and_assoc] using valid

theorem pickMin_least (some_ : versions ≠ [])
    (valid : ∀ v ∈ versions, v.invalid = false) :
    LeastVersion versions (pickMin versions) := by
  obtain ⟨any, listed⟩ := List.exists_mem_of_ne_nil _ some_
  obtain ⟨⟨one, oneMember, _, major⟩, majorLeast⟩ :=
    @pickLoop_least (fun _ => True) _ (·.major) versions
      (fun v member => (not_invalid (valid v member)).1)
      ⟨any, listed, trivial⟩
  rw [← pickMin_major] at major majorLeast
  obtain ⟨⟨two, twoMember, twoMajor, minor⟩, minorLeast⟩ :=
    @pickLoop_least ((pickMin versions).major = ·.major) _ (·.minor) versions
      (fun v member => (not_invalid (valid v member)).2.1)
      ⟨one, oneMember, major.symm⟩
  rw [← pickMin_minor] at minor minorLeast
  obtain ⟨⟨three, threeMember, ⟨threeMajor, threeMinor⟩, patch⟩,
      patchLeast⟩ :=
    @pickLoop_least (fun v => (pickMin versions).major = v.major ∧
        (pickMin versions).minor = v.minor) _ (·.patch) versions
      (fun v member => (not_invalid (valid v member)).2.2)
      ⟨two, twoMember, twoMajor, minor.symm⟩
  rw [← pickMin_patch] at patch patchLeast
  refine ⟨rfl, ⟨three, threeMember, ?_⟩, fun v member => ?_⟩
  · simp only [ProtocolVersion.numbers, threeMajor, threeMinor, patch]
  · rcases UInt16.lt_or_eq_of_le (majorLeast v member trivial) with
      lower | sameMajor
    · exact .inl lower
    · refine .inr ⟨sameMajor, ?_⟩
      rcases UInt16.lt_or_eq_of_le (minorLeast v member sameMajor) with
        lower | sameMinor
      · exact .inl lower
      · exact .inr ⟨sameMinor, patchLeast v member ⟨sameMajor, sameMinor⟩⟩

/-- The least of valid versions is valid. -/
theorem LeastVersion.valid {least : ProtocolVersion}
    (isLeast : LeastVersion versions least)
    (valid : ∀ v ∈ versions, v.invalid = false) : least.invalid = false := by
  obtain ⟨version, member, same⟩ := isLeast.member
  obtain ⟨major, rest⟩ := Prod.mk.inj same
  obtain ⟨minor, patch⟩ := Prod.mk.inj rest
  have fine := valid version member
  unfold ProtocolVersion.invalid at fine ⊢
  rw [← major, ← minor, ← patch]
  exact fine

/-- The protocol messages that are stored for the members. -/
def memberProtos (daemon : ProtocolDaemon) : List Protocol :=
  (daemon.daemonMember.filterMap
    (getNodeDaemon daemon.daemonNodes)).map (·.proto)

theorem mapM_getNodeDaemon {nodes : List DaemonNode} {members : List Int32}
    (known : ∀ n ∈ members, (getNodeDaemon nodes n).isSome = true) :
    members.mapM (getNodeDaemon nodes) =
      some (members.filterMap (getNodeDaemon nodes)) := by
  induction members with
  | nil => rfl
  | cons n later induction =>
      obtain ⟨first, rest⟩ := List.forall_mem_cons.mp known
      obtain ⟨node, found⟩ := Option.isSome_iff_exists.mp first
      rw [List.mapM_cons, found, induction rest,
        List.filterMap_cons_some found]
      rfl

/-- The choice when the message of every member is stored. -/
theorem pickMinProtocol_eq {daemon : ProtocolDaemon} (proto : Protocol)
    (some_ : daemon.daemonMember ≠ [])
    (known : ∀ n ∈ daemon.daemonMember,
      (getNodeDaemon daemon.daemonNodes n).isSome = true)
    (valid : ∀ p ∈ memberProtos daemon,
      p.daemonMax.invalid = false ∧ p.kernelMax.invalid = false) :
    ∃ mind mink,
      LeastVersion ((memberProtos daemon).map (·.daemonMax)) mind ∧
      LeastVersion ((memberProtos daemon).map (·.kernelMax)) mink ∧
      pickMinProtocol daemon proto =
        some { proto with daemonRun := mind, kernelRun := mink } := by
  have listed : memberProtos daemon ≠ [] := by
    obtain ⟨n, member⟩ := List.exists_mem_of_ne_nil _ some_
    obtain ⟨node, found⟩ := Option.isSome_iff_exists.mp (known n member)
    exact List.ne_nil_of_mem (List.mem_map_of_mem
      (List.mem_filterMap.mpr ⟨n, member, found⟩))
  have daemons : ∀ v ∈ (memberProtos daemon).map (·.daemonMax),
      v.invalid = false := by
    intro v member
    obtain ⟨p, there, rfl⟩ := List.mem_map.mp member
    exact (valid p there).1
  have kernels : ∀ v ∈ (memberProtos daemon).map (·.kernelMax),
      v.invalid = false := by
    intro v member
    obtain ⟨p, there, rfl⟩ := List.mem_map.mp member
    exact (valid p there).2
  have mind := pickMin_least (by simpa using listed) daemons
  have mink := pickMin_least (by simpa using listed) kernels
  refine ⟨_, _, mind, mink, ?_⟩
  have mindValid := mind.valid daemons
  have minkValid := mink.valid kernels
  simp only [memberProtos, List.map_map] at mindValid minkValid ⊢
  simp only [pickMinProtocol, mapM_getNodeDaemon known]
  rw [if_neg]
  · rfl
  · simp only [Function.comp_def] at mindValid minkValid
    rw [mindValid, minkValid]
    exact Bool.false_ne_true

/-- If a valid message of every member is stored, `pick_min_protocol` chooses
the least of the versions that the members can run, for the daemon and for the
kernel, whatever the order of the members. -/
theorem picked_is_least (daemon : ProtocolDaemon) (proto : Protocol)
    (some_ : daemon.daemonMember ≠ [])
    (known : ∀ n ∈ daemon.daemonMember,
      (getNodeDaemon daemon.daemonNodes n).isSome = true)
    (valid : ∀ p ∈ memberProtos daemon,
      p.daemonMax.invalid = false ∧ p.kernelMax.invalid = false) :
    ∃ mind mink,
      LeastVersion ((memberProtos daemon).map (·.daemonMax)) mind ∧
      LeastVersion ((memberProtos daemon).map (·.kernelMax)) mink ∧
      ∀ members, members.Perm daemon.daemonMember →
        pickMinProtocol { daemon with daemonMember := members } proto =
          some { proto with daemonRun := mind, kernelRun := mink } := by
  obtain ⟨mind, mink, leastDaemon, leastKernel, _⟩ :=
    pickMinProtocol_eq proto some_ known valid
  refine ⟨mind, mink, leastDaemon, leastKernel, fun members perm => ?_⟩
  have protos : (memberProtos { daemon with daemonMember := members }).Perm
      (memberProtos daemon) := (perm.filterMap _).map _
  have present : members ≠ [] := by
    intro empty
    rw [empty] at perm
    exact some_ perm.nil_eq.symm
  obtain ⟨otherDaemon, otherKernel, firstLeast, secondLeast, equation⟩ :=
    @pickMinProtocol_eq { daemon with daemonMember := members } proto present
      (fun n member => known n (perm.mem_iff.mp member))
      (fun p member => valid p (protos.mem_iff.mp member))
  rw [equation,
    firstLeast.unique leastDaemon fun _ => (protos.map _).mem_iff,
    secondLeast.unique leastKernel fun _ => (protos.map _).mem_iff]

/-- A daemon that has heard from two members: the first has the lower minor
number of the daemon, the second the lower major number of the kernel. -/
def heardFromTwo : ProtocolDaemon :=
  { ProtocolDaemon.new with
    daemonMember := [1, 2]
    daemonNodes :=
      [{ nodeid := 1
         proto :=
           { Protocol.zero with
             daemonMax := { major := 1, minor := 1, patch := 9, flags := 0 }
             kernelMax := { major := 2, minor := 1, patch := 1, flags := 0 } } },
        { nodeid := 2
          proto :=
            { Protocol.zero with
              daemonMax := { major := 1, minor := 2, patch := 1, flags := 0 }
              kernelMax :=
                { major := 1, minor := 5, patch := 1, flags := 0 } } }] }

theorem heardFromTwo_picks :
    ∃ mind mink,
      LeastVersion ((memberProtos heardFromTwo).map (·.daemonMax)) mind ∧
      LeastVersion ((memberProtos heardFromTwo).map (·.kernelMax)) mink ∧
      ∀ members, members.Perm heardFromTwo.daemonMember →
        pickMinProtocol { heardFromTwo with daemonMember := members }
          Protocol.zero =
          some { Protocol.zero with daemonRun := mind, kernelRun := mink } :=
  picked_is_least heardFromTwo Protocol.zero (List.cons_ne_nil _ _)
    (List.forall_mem_cons.mpr ⟨rfl, List.forall_mem_singleton.mpr rfl⟩)
    (List.forall_mem_cons.mpr
      ⟨⟨rfl, rfl⟩, List.forall_mem_singleton.mpr ⟨rfl, rfl⟩⟩)

end Pick

end Dlm.Cpg
