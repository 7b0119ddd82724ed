import Mathlib.Data.List.ReduceOption
import Dlm.Lib.Calls
import Dlm.Plock.Codec
import Dlm.Plock.Restore
import Dlm.Plock.Slots

/-!
# The return codes of the checkpoint service

`store_plocks` and `retrieve_plocks` act on the return codes of the checkpoint
service: they repeat a call that is to be tried again and give up on most other
errors.  Neither tells its caller, so a joining node clears `need_plocks`
whatever it has read.  Calls whose return code is not looked at are left out.
-/

namespace Dlm.Plock

/-- The return codes that the two functions tell apart. -/
inductive SaCode where
  | ok
  | tryAgain
  | exist
  | noSections
  | failed
  deriving DecidableEq, Repr

/-- The checkpoint under the name of the lockspace, and whether the storing
node has a handle in `plock_ckpt_handle`. -/
structure Service where
  named : Option (List Section)
  handle : Bool
  deriving DecidableEq, Repr

/-- The call that `store_plocks` makes next; the first three are those of
`_unlink_checkpoint`. -/
inductive StoreAt where
  | unlink
  | status
  | close
  | opening
  | create (section_ : Section) (later : List Section)
  | returned
  deriving DecidableEq, Repr

def StoreAt.done : StoreAt → Bool
  | .returned => true
  | _ => false

/-- The loop over the resources. -/
def creating : List Section → StoreAt
  | [] => .returned
  | section_ :: later => .create section_ later

def closing (service : Service) : StoreAt :=
  if service.handle then .close else .opening

/-- What `store_plocks` does with a return code. -/
def storeStep (sections : List Section) :
    StoreAt → Service → SaCode → StoreAt × Service
  | place, service, .tryAgain => (place, service)
  | .unlink, service, .ok =>
      (closing service, { service with named := none })
  | .unlink, service, _ => (.status, service)
  | .status, service, _ => (closing service, service)
  | .close, service, _ => (.opening, { service with handle := false })
  | .opening, service, .ok =>
      (creating sections,
        { named := some (service.named.getD []), handle := true })
  | .opening, service, _ => (.returned, service)
  | .create section_ later, service, .ok =>
      (creating later,
        { service with named := service.named.map (· ++ [section_]) })
  | .create _ _, service, .exist => (.unlink, service)
  | .create _ _, service, _ => (.returned, service)
  | .returned, service, _ => (.returned, service)

/-- `store_plocks` with these return codes; the checkpoint afterwards. -/
def storePlocksCodes (env : Env) (ls : Lockspace) (service : Service)
    (codes : List SaCode) : Option Service :=
  runCalls (storeStep (storePlocks env ls)) StoreAt.done .unlink service codes

/-- A reply to the reading node: the return code, and by how many bytes
`readSize` stays behind the size of the section. -/
structure Reply where
  code : SaCode
  missing : Nat
  deriving DecidableEq, Repr

variable {reply : Reply} {count : Nat} {replies : List Reply}

/-- The replies after which a call is not repeated. -/
def settledReplies (replies : List Reply) : List Reply :=
  replies.filter fun reply => !(reply.code == .tryAgain)

/-- The call that `retrieve_plocks` makes next.  The sections come in the order
of the iteration; `none` is one with an empty id. -/
inductive ReadAt where
  | opening
  | init
  | next (todo : List (Option Section))
  | read (section_ : Section) (todo : List (Option Section))
  | returned
  deriving DecidableEq, Repr

def ReadAt.done : ReadAt → Bool
  | .returned => true
  | _ => false

def readSize (section_ : Section) (reply : Reply) : Nat :=
  section_.data.length * PACK_PLOCK_SIZE - reply.missing

/-- The end of the loop body, behind a successful read. -/
def unpackRead (env : Env) (section_ : Section) (reply : Reply)
    (ls : Lockspace) : Lockspace :=
  if readSize section_ reply % PACK_PLOCK_SIZE ≠ 0 then ls
  else
    retrievePlocks env
      [{ section_ with
        data := section_.data.take
          (readSize section_ reply / PACK_PLOCK_SIZE) }] ls

/-- What `retrieve_plocks` does with a reply. -/
def readStep (env : Env) (listed : List (Option Section)) (place : ReadAt)
    (ls : Lockspace) (reply : Reply) : ReadAt × Lockspace :=
  match reply.code, place with
  | .tryAgain, _ => (place, ls)
  | .ok, .opening => (.init, ls)
  | .ok, .init => (.next listed, ls)
  | .ok, .next (none :: todo) => (.next todo, ls)
  | .ok, .next (some section_ :: todo) => (.read section_ todo, ls)
  | .ok, .read section_ todo =>
      (.next todo, unpackRead env section_ reply ls)
  | _, _ => (.returned, ls)

/-- `retrieve_plocks` with these replies. -/
def retrievePlocksCodes (env : Env) (listed : List (Option Section))
    (replies : List Reply) (ls : Lockspace) : Option Lockspace :=
  runCalls (readStep env listed) ReadAt.done .opening ls replies

/-- The part of `receive_plocks_stored` behind its tests. -/
def receivePlocksStoredCodes (env : Env) (listed : List (Option Section))
    (replies : List Reply) (ls : Lockspace) :
    Option (Lockspace × List Effect) :=
  (retrievePlocksCodes env listed replies ls).map fun read =>
    let (ls, effects) := processSavedPlocks env read
    ({ ls with needPlocks := false, savePlocks := false }, effects)

def Lockspace.Has (ls : Lockspace) (number : UInt64) : Prop :=
  ∃ r ∈ ls.plockResources, r.number = number

/-- The calls that the loop makes for sections it gets through. -/
def callsFor : List (Option Section) → Nat
  | [] => 0
  | none :: later => callsFor later + 1
  | some _ :: later => callsFor later + 2

/-- A section is read after `count` successful calls, in whole records. -/
def ReadAfter (count : Nat) (section_ : Section) (replies : List Reply) :
    Prop :=
  ∃ front reply later, replies = front ++ reply :: later ∧
    front.length = count ∧ (∀ earlier ∈ front, earlier.code = .ok) ∧
    reply.code = .ok ∧ readSize section_ reply % PACK_PLOCK_SIZE = 0

/-- A node stores its plock state and a joining node retrieves it. -/
structure Handover where
  writer : Env
  source : Lockspace
  service : Service
  codes : List SaCode
  reader : Env
  joiner : Lockspace
  listed : List (Option Section)
  replies : List Reply

/-- The joining node has read the checkpoint that the store left, and clears
`need_plocks`. -/
def Handover.Ends (h : Handover) (read final : Lockspace) : Prop :=
  h.joiner.needPlocks = true ∧
    (∃ left, storePlocksCodes h.writer h.source h.service h.codes =
        some left ∧ h.listed.reduceOption.Perm (left.named.getD [])) ∧
    retrievePlocksCodes h.reader h.listed h.replies h.joiner = some read ∧
    (∃ effects, receivePlocksStoredCodes h.reader h.listed h.replies
      h.joiner = some (final, effects)) ∧
    final.needPlocks = false

/-- The joining node has every resource for which a section was to be
written. -/
def Handover.Complete (h : Handover) (read : Lockspace) : Prop :=
  ∀ r ∈ h.source.plockResources, (storeResource h.writer r).isSome →
    read.Has r.number

section Retrieve

variable {env : Env} {listed todo : List (Option Section)}
  {section_ : Section} {ls read : Lockspace} {number : UInt64}

theorem has_unpackRead :
    (unpackRead env section_ reply ls).Has number ↔
      ls.Has number ∨ (sectionNumber section_ = number ∧
        readSize section_ reply % PACK_PLOCK_SIZE = 0) := by
  unfold unpackRead
  split
  · rename_i broken
    simp [broken]
  · rename_i whole
    have whole := Decidable.not_not.mp whole
    simp [Lockspace.Has, retrievePlocks, whole, or_and_right, exists_or,
      unpackSectionBuf, sectionNumber]

theorem readAfter_cons :
    ReadAfter (count + 1) section_ (reply :: replies) ↔
      reply.code = .ok ∧ ReadAfter count section_ replies := by
  constructor
  · intro ⟨front, last, later, whole, length, passed, good, size⟩
    cases front with
    | nil => cases length
    | cons first front =>
        cases whole
        exact ⟨passed _ List.mem_cons_self, front, last, later, rfl,
          Nat.succ.inj length,
          fun earlier member => passed earlier (List.mem_cons_of_mem _ member),
          good, size⟩
  · intro ⟨ok, front, last, later, whole, length, passed, good, size⟩
    refine ⟨reply :: front, last, later, by rw [whole]; rfl,
      by rw [List.length_cons, length], ?_, good, size⟩
    intro earlier member
    rcases List.mem_cons.mp member with rfl | member
    · exact ok
    · exact passed earlier member

theorem readAfter_zero :
    ReadAfter 0 section_ (reply :: replies) ↔
      reply.code = .ok ∧ readSize section_ reply % PACK_PLOCK_SIZE = 0 := by
  constructor
  · intro ⟨front, last, later, whole, length, _, good, size⟩
    cases List.length_eq_zero_iff.mp length
    cases whole
    exact ⟨good, size⟩
  · intro ⟨good, size⟩
    exact ⟨[], reply, replies, rfl, rfl,
      fun _ member => absurd member List.not_mem_nil, good, size⟩

/-- After `count` successful calls the loop gets through the list to a section
with the number, and unpacks it. -/
def Reads (number : UInt64) (todo : List (Option Section)) (count : Nat)
    (replies : List Reply) : Prop :=
  ∃ before section_ later, todo = before ++ some section_ :: later ∧
    sectionNumber section_ = number ∧
    ReadAfter (count + callsFor before + 1) section_ replies

theorem not_reads_nil :
    ¬Reads number [] count replies := by
  intro ⟨before, section_, later, whole, _⟩
  cases before <;> cases whole

theorem reads_none :
    Reads number (none :: todo) count replies ↔
      Reads number todo (count + 1) replies := by
  constructor
  · intro ⟨before, section_, later, whole, same, read⟩
    cases before with
    | nil => cases whole
    | cons first before =>
        cases whole
        refine ⟨before, section_, later, rfl, same, ?_⟩
        rw [callsFor] at read
        rwa [Nat.add_right_comm count 1]
  · intro ⟨before, section_, later, whole, same, read⟩
    refine ⟨none :: before, section_, later, by rw [whole]; rfl, same, ?_⟩
    rw [callsFor]
    rwa [Nat.add_right_comm count 1] at read

theorem reads_some :
    Reads number (some section_ :: todo) count replies ↔
      (sectionNumber section_ = number ∧
        ReadAfter (count + 1) section_ replies) ∨
      Reads number todo (count + 2) replies := by
  constructor
  · intro ⟨before, other, later, whole, same, read⟩
    cases before with
    | nil =>
        cases whole
        exact .inl ⟨same, read⟩
    | cons first before =>
        cases whole
        refine .inr ⟨before, other, later, rfl, same, ?_⟩
        rw [callsFor] at read
        rwa [Nat.add_right_comm count 2]
  · intro reads
    rcases reads with ⟨same, read⟩ | ⟨before, other, later, whole, same, read⟩
    · exact ⟨[], section_, todo, rfl, same, read⟩
    · refine ⟨some section_ :: before, other, later, by rw [whole]; rfl, same,
        ?_⟩
      rw [callsFor]
      rwa [Nat.add_right_comm count 2] at read

theorem reads_cons :
    Reads number todo (count + 1) (reply :: replies) ↔
      reply.code = .ok ∧ Reads number todo count replies := by
  have shifted (before : List (Option Section)) :
      count + 1 + callsFor before + 1 = count + callsFor before + 1 + 1 := by
    omega
  constructor
  · intro ⟨before, section_, later, whole, same, read⟩
    rw [shifted, readAfter_cons] at read
    exact ⟨read.1, before, section_, later, whole, same, read.2⟩
  · intro ⟨ok, before, section_, later, whole, same, read⟩
    refine ⟨before, section_, later, whole, same, ?_⟩
    rw [shifted, readAfter_cons]
    exact ⟨ok, read⟩

/-- A reply that is neither a success nor to be tried again ends the
function. -/
theorem readStep_failed (place : ReadAt) (settled : reply.code ≠ .tryAgain)
    (failed : reply.code ≠ .ok) :
    readStep env listed place ls reply = (.returned, ls) := by
  cases code : reply.code with
  | ok => exact absurd code failed
  | tryAgain => exact absurd code settled
  | exist => simp [readStep, code]
  | noSections => simp [readStep, code]
  | failed => simp [readStep, code]

/-- What the function does with its next reply, which is not to be tried
again. -/
theorem retrieve_cons {place : ReadAt} (running : place.done = false)
    (settled : ∀ reply ∈ replies, reply.code ≠ .tryAgain)
    (ran : runCalls (readStep env listed) ReadAt.done place ls replies =
      some read) :
    ∃ reply later, replies = reply :: later ∧
      (∀ other ∈ later, other.code ≠ .tryAgain) ∧
      (reply.code ≠ .ok ∧ read = ls ∨ reply.code = .ok ∧
        runCalls (readStep env listed) ReadAt.done
          (readStep env listed place ls reply).1
          (readStep env listed place ls reply).2 later = some read) := by
  cases replies with
  | nil =>
      have returned := (runCalls_nil ran).1
      rw [running] at returned
      cases returned
  | cons reply later =>
      have rest := List.forall_mem_cons.mp settled
      refine ⟨reply, later, rfl, rest.2, ?_⟩
      rw [runCalls_cons running] at ran
      by_cases ok : reply.code = .ok
      · exact .inr ⟨ok, ran⟩
      · rw [readStep_failed place rest.1 ok] at ran
        exact .inl ⟨ok, runCalls_done rfl ran⟩

/-- The numbers that the loop adds. -/
theorem loop_has (settled : ∀ reply ∈ replies, reply.code ≠ .tryAgain)
    (ran : runCalls (readStep env listed) ReadAt.done (.next todo) ls
      replies = some read) :
    read.Has number ↔ ls.Has number ∨ Reads number todo 0 replies := by
  induction todo generalizing ls replies with
  | nil =>
      obtain ⟨reply, later, rfl, -, after⟩ := retrieve_cons rfl settled ran
      have same : read = ls := by
        rcases after with ⟨-, same⟩ | ⟨ok, ran⟩
        · exact same
        · simp only [readStep, ok] at ran
          exact runCalls_done rfl ran
      rw [same, or_iff_left not_reads_nil]
  | cons entry todo induction =>
      obtain ⟨reply, later, rfl, settled, after⟩ :=
        retrieve_cons rfl settled ran
      cases entry with
      | none =>
          rw [reads_none, reads_cons]
          rcases after with ⟨failed, rfl⟩ | ⟨ok, ran⟩
          · simp [failed]
          · simp only [readStep, ok] at ran
            rw [induction settled ran]
            simp [ok]
      | some section_ =>
          rw [reads_some, readAfter_cons, reads_cons]
          rcases after with ⟨failed, rfl⟩ | ⟨ok, ran⟩
          · simp [failed]
          · simp only [readStep, ok] at ran
            obtain ⟨reply, later, rfl, settled, after⟩ :=
              retrieve_cons rfl settled ran
            rw [readAfter_zero, reads_cons]
            rcases after with ⟨failed, rfl⟩ | ⟨ok', ran⟩
            · simp [failed]
            · simp only [readStep, ok'] at ran
              rw [induction settled ran, has_unpackRead]
              simp [ok, ok', or_assoc]

/-- The numbers that `retrieve_plocks` adds. -/
theorem retrievePlocksCodes_has
    (ran : retrievePlocksCodes env listed replies ls = some read) :
    read.Has number ↔
      ls.Has number ∨ Reads number listed 2 (settledReplies replies) := by
  have tried : ∀ reply ∈ settledReplies replies, reply.code ≠ .tryAgain := by
    intro reply member
    simpa using (List.mem_filter.mp member).2
  have ran : runCalls (readStep env listed) ReadAt.done .opening ls
      (settledReplies replies) = some read := by
    apply runCalls_retry _ _ ran
    intro place state reply _ again
    simp [readStep, eq_of_beq again]
  obtain ⟨opened, later, shape, tried, after⟩ := retrieve_cons rfl tried ran
  rw [shape, reads_cons]
  rcases after with ⟨failed, rfl⟩ | ⟨ok, ran⟩
  · simp [failed]
  · simp only [readStep, ok] at ran
    obtain ⟨begun, later, rfl, tried, after⟩ := retrieve_cons rfl tried ran
    rw [reads_cons]
    rcases after with ⟨failed, rfl⟩ | ⟨ok', ran⟩
    · simp [failed]
    · simp only [readStep, ok'] at ran
      rw [loop_has tried ran]
      simp [ok, ok']

/-- Replies of a service that returns every section in full. -/
def okReplies : List Section → List Reply
  | [] => [{ code := .noSections, missing := 0 }]
  | _ :: later =>
      { code := .ok, missing := 0 } :: { code := .ok, missing := 0 } ::
        okReplies later

theorem unpackRead_ok (ls : Lockspace) :
    unpackRead env section_ { code := .ok, missing := 0 } ls =
      retrievePlocks env [section_] ls := by
  have size : readSize section_ { code := .ok, missing := 0 } =
      section_.data.length * PACK_PLOCK_SIZE := rfl
  have count : section_.data.length * PACK_PLOCK_SIZE / PACK_PLOCK_SIZE =
      section_.data.length := Nat.mul_div_cancel _ (by decide)
  rw [unpackRead, size, Nat.mul_mod_left, if_neg (by simp), count,
    List.take_length]

/-- Without errors `retrieve_plocks` is the function of the checkpoint
model. -/
theorem retrievePlocksCodes_ok (env : Env) (sections : List Section)
    (ls : Lockspace) :
    retrievePlocksCodes env (sections.map some)
        ({ code := .ok, missing := 0 } :: { code := .ok, missing := 0 } ::
          okReplies sections) ls =
      some (retrievePlocks env sections ls) := by
  have loop (listed : List (Option Section)) :
      runCalls (readStep env listed) ReadAt.done
        (.next (sections.map some)) ls (okReplies sections) =
        some (retrievePlocks env sections ls) := by
    induction sections generalizing ls with
    | nil => simp [okReplies, runCalls, readStep, ReadAt.done, retrievePlocks]
    | cons section_ later induction =>
        rw [List.map_cons, okReplies, runCalls_cons rfl, runCalls_cons rfl]
        simp only [readStep, unpackRead_ok]
        rw [induction]
        simp [retrievePlocks]
  rw [retrievePlocksCodes, runCalls_cons rfl, runCalls_cons rfl]
  exact loop _

end Retrieve

section Store

/-- The return codes after which a call is not repeated. -/
def settledCodes (codes : List SaCode) : List SaCode :=
  codes.filter fun code => !(code == .tryAgain)

/-- The return codes of `_unlink_checkpoint`, and whether the checkpoint is
gone: after a failed unlink the status is asked for, and an open handle is
closed. -/
def Unlinks (handle gone : Bool) (codes : List SaCode) : Prop :=
  ∃ unlink closed, codes = unlink ++ closed ∧
    closed.length = handle.toNat ∧
    (gone = true ∧ unlink = [.ok] ∨
      gone = false ∧ ∃ error status, error ≠ .ok ∧ unlink = [error, status])

/-- The sections that are there when the checkpoint is opened. -/
def remaining (gone : Bool) (old : List Section) : List Section :=
  if gone then [] else old

/-- The sections that `store_plocks` leaves after these return codes: those it
has created since it last opened the checkpoint, behind those it could not
unlink. -/
inductive Leaves (sections : List Section) :
    Bool → List Section → List SaCode → List Section → Prop
  | unopened {handle gone old front error}
      (unlinked : Unlinks handle gone front) (failed : error ≠ .ok) :
      Leaves sections handle old (front ++ [error]) (remaining gone old)
  | finished {handle gone old front} (unlinked : Unlinks handle gone front) :
      Leaves sections handle old
        (front ++ .ok :: List.replicate sections.length .ok)
        (remaining gone old ++ sections)
  | broken {handle gone old front error} {count : Nat}
      (unlinked : Unlinks handle gone front) (more : count < sections.length)
      (failed : error ≠ .ok ∧ error ≠ .exist) :
      Leaves sections handle old
        (front ++ .ok :: (List.replicate count .ok ++ [error]))
        (remaining gone old ++ sections.take count)
  | renewed {handle gone old front later left} {count : Nat}
      (unlinked : Unlinks handle gone front) (more : count < sections.length)
      (again : Leaves sections true
        (remaining gone old ++ sections.take count) later left) :
      Leaves sections handle old
        (front ++ .ok :: (List.replicate count .ok ++ .exist :: later)) left

/-- The rest of the calls, none of which is to be tried again. -/
structure Stores (sections : List Section) (place : StoreAt)
    (service : Service) (codes : List SaCode) (left : Service) : Prop where
  settled : ∀ code ∈ codes, code ≠ .tryAgain
  ran : runCalls (storeStep sections) StoreAt.done place service codes =
    some left

variable {sections contents : List Section} {place : StoreAt}
  {service left : Service} {codes : List SaCode}

theorem Stores.cons (stores : Stores sections place service codes left)
    (running : place.done = false) :
    ∃ code later, codes = code :: later ∧ code ≠ .tryAgain ∧
      Stores sections (storeStep sections place service code).1
        (storeStep sections place service code).2 later left := by
  obtain ⟨settled, ran⟩ := stores
  cases codes with
  | nil =>
      have returned := (runCalls_nil ran).1
      rw [running] at returned
      cases returned
  | cons code later =>
      rw [runCalls_cons running] at ran
      have rest := List.forall_mem_cons.mp settled
      exact ⟨code, later, rfl, rest.1, rest.2, ran⟩

theorem Stores.returned
    (stores : Stores sections .returned service codes left) :
    codes = [] ∧ left = service := by
  obtain ⟨-, ran⟩ := stores
  cases codes with
  | nil => exact ⟨rfl, (runCalls_nil ran).2⟩
  | cons code later => cases ran

theorem Stores.close
    (stores : Stores sections (closing service) service codes left) :
    ∃ closed later, codes = closed ++ later ∧
      closed.length = service.handle.toNat ∧
      Stores sections .opening { service with handle := false } later left := by
  unfold closing at stores
  cases open_ : service.handle with
  | true =>
      rw [open_, if_pos rfl] at stores
      obtain ⟨code, later, rfl, settled, rest⟩ := stores.cons rfl
      refine ⟨[code], later, rfl, rfl, ?_⟩
      cases code with
      | tryAgain => exact absurd rfl settled
      | _ => exact rest
  | false =>
      rw [open_, if_neg Bool.false_ne_true] at stores
      refine ⟨[], codes, rfl, rfl, ?_⟩
      rw [← open_]
      exact stores

/-- The calls of `_unlink_checkpoint`. -/
theorem Stores.unlink (stores : Stores sections .unlink service codes left) :
    ∃ gone front later, ∃ opened : Service,
      codes = front ++ later ∧ Unlinks service.handle gone front ∧
      opened.named.getD [] = remaining gone (service.named.getD []) ∧
      Stores sections .opening opened later left := by
  obtain ⟨code, later, rfl, settled, rest⟩ := stores.cons rfl
  by_cases ok : code = .ok
  · subst ok
    have rest : Stores sections (closing { service with named := none })
        { service with named := none } later left := rest
    obtain ⟨closed, later, rfl, length, rest⟩ := rest.close
    exact ⟨true, .ok :: closed, later, _, rfl,
      ⟨[.ok], closed, rfl, length, .inl ⟨rfl, rfl⟩⟩, rfl, rest⟩
  · have asked : storeStep sections .unlink service code =
        (.status, service) := by
      cases code <;> first | rfl | contradiction
    rw [asked] at rest
    obtain ⟨status, later, rfl, settled, rest⟩ := rest.cons rfl
    have next : storeStep sections .status service status =
        (closing service, service) := by
      cases status <;> first | rfl | contradiction
    rw [next] at rest
    obtain ⟨closed, later, rfl, length, rest⟩ := rest.close
    exact ⟨false, code :: status :: closed, later,
      { service with handle := false }, rfl,
      ⟨[code, status], closed, rfl, length,
        .inr ⟨rfl, code, status, ok, rfl⟩⟩, rfl, rest⟩

/-- The loop over the resources: it creates all sections, or stops at one and
begins again if that one exists. -/
theorem Stores.create {later : List Section}
    (stores : Stores sections (creating later)
      { named := some contents, handle := true } codes left) :
    codes = List.replicate later.length .ok ∧
        left.named = some (contents ++ later) ∨
      ∃ count code rest, count < later.length ∧ code ≠ .ok ∧
        codes = List.replicate count .ok ++ code :: rest ∧
        if code = .exist then
          Stores sections .unlink
            { named := some (contents ++ later.take count), handle := true }
            rest left
        else rest = [] ∧ left.named = some (contents ++ later.take count) := by
  induction later generalizing contents codes with
  | nil =>
      obtain ⟨rfl, rfl⟩ := stores.returned
      exact .inl ⟨rfl, by rw [List.append_nil]⟩
  | cons section_ later induction =>
      obtain ⟨code, rest, rfl, settled, stores⟩ := stores.cons rfl
      by_cases ok : code = .ok
      · subst ok
        have tail (count : Nat) : contents ++ (section_ :: later).take
            (count + 1) = contents ++ [section_] ++ later.take count := by
          simp
        rcases induction stores with ⟨rfl, named⟩ |
          ⟨count, code, rest, more, failed, rfl, stopped⟩
        · exact .inl ⟨rfl, by rw [named, List.append_assoc]; rfl⟩
        · refine .inr ⟨count + 1, code, rest, Nat.succ_lt_succ more, failed,
            rfl, ?_⟩
          rw [tail]
          exact stopped
      · refine .inr ⟨0, code, rest, Nat.succ_pos _, ok, rfl, ?_⟩
        rw [List.take_zero, List.append_nil]
        cases code with
        | ok => contradiction
        | tryAgain => contradiction
        | exist => exact stores
        | noSections =>
            obtain ⟨rfl, rfl⟩ := stores.returned
            exact ⟨rfl, rfl⟩
        | failed =>
            obtain ⟨rfl, rfl⟩ := stores.returned
            exact ⟨rfl, rfl⟩

/-- One induction over the rounds: an existing section begins a new one. -/
theorem Stores.leaves (stores : Stores sections .unlink service codes left) :
    Leaves sections service.handle (service.named.getD []) codes
      (left.named.getD []) := by
  induction length : codes.length using Nat.strong_induction_on
    generalizing service codes with
  | _ bound induction =>
      obtain ⟨gone, front, later, opened, rfl, unlinked, named, rest⟩ :=
        stores.unlink
      obtain ⟨code, later, rfl, settled, rest⟩ := rest.cons rfl
      by_cases ok : code = .ok
      · subst ok
        change Stores sections (creating sections)
          { named := some (opened.named.getD []), handle := true } later
          left at rest
        rw [named] at rest
        rcases rest.create with ⟨rfl, all⟩ |
          ⟨count, code, again, more, failed, rfl, stopped⟩
        · rw [all]
          exact .finished unlinked
        · by_cases exists_ : code = .exist
          · subst exists_
            rw [if_pos rfl] at stopped
            apply Leaves.renewed unlinked more
            apply induction again.length _ stopped rfl
            rw [← length]
            simp only [List.length_append, List.length_cons]
            omega
          · rw [if_neg exists_] at stopped
            obtain ⟨rfl, part⟩ := stopped
            rw [part]
            exact .broken unlinked more ⟨failed, exists_⟩
      · have stopped : storeStep sections .opening opened code =
            (.returned, opened) := by
          cases code <;> first | rfl | contradiction
        rw [stopped] at rest
        obtain ⟨rfl, rfl⟩ := rest.returned
        rw [named]
        exact .unopened unlinked ok

/-- What `store_plocks` leaves is determined by its return codes. -/
theorem storePlocksCodes_leaves {env : Env} {ls : Lockspace}
    (ran : storePlocksCodes env ls service codes = some left) :
    Leaves (storePlocks env ls) service.handle (service.named.getD [])
      (settledCodes codes) (left.named.getD []) := by
  apply Stores.leaves
  constructor
  · intro code member
    simpa using (List.mem_filter.mp member).2
  · apply runCalls_retry _ _ ran
    intro place state code _ again
    rw [eq_of_beq again]
    cases place <;> rfl

/-- Without errors `store_plocks` is the function of the checkpoint model. -/
theorem storePlocksCodes_ok (env : Env) (ls : Lockspace) :
    storePlocksCodes env ls { named := none, handle := false }
        (.failed :: .failed :: .ok ::
          List.replicate (storePlocks env ls).length .ok) =
      some { named := some (storePlocks env ls), handle := true } := by
  have loop (sections contents later : List Section) :
      runCalls (storeStep sections) StoreAt.done (creating later)
        { named := some contents, handle := true }
        (List.replicate later.length .ok) =
        some { named := some (contents ++ later), handle := true } := by
    induction later generalizing contents with
    | nil => simp [creating, runCalls, StoreAt.done]
    | cons section_ later induction =>
        rw [List.length_cons, List.replicate_succ, creating,
          runCalls_cons rfl]
        simp only [storeStep, Option.map_some]
        rw [induction]
        simp
  rw [storePlocksCodes, runCalls_cons rfl, runCalls_cons rfl,
    runCalls_cons rfl]
  exact loop _ [] _

end Store

/-- The listing that the joining node finds is what the return codes of the
store leave, and the node has every resource exactly if, for each of them that
it did not know, a section is left, every call up to the one that reads it
succeeds, and it is read in whole records. -/
theorem handover_complete_iff (h : Handover) {read final : Lockspace}
    (ends : h.Ends read final) :
    ∃ left,
      Leaves (storePlocks h.writer h.source) h.service.handle
        (h.service.named.getD []) (settledCodes h.codes) left ∧
      h.listed.reduceOption.Perm left ∧
      (h.Complete read ↔
        ∀ r ∈ h.source.plockResources, (storeResource h.writer r).isSome →
          h.joiner.Has r.number ∨
            (∃ section_ ∈ left, sectionNumber section_ = r.number) ∧
              Reads r.number h.listed 2 (settledReplies h.replies)) := by
  obtain ⟨-, ⟨left, stored, same⟩, ran, -⟩ := ends
  refine ⟨left.named.getD [], storePlocksCodes_leaves stored, same, ?_⟩
  have there {number : UInt64} {replies : List Reply}
      (reads : Reads number h.listed 2 replies) :
      ∃ section_ ∈ left.named.getD [], sectionNumber section_ = number := by
    obtain ⟨before, section_, later, shape, number, -⟩ := reads
    refine ⟨section_, same.mem_iff.mp ?_, number⟩
    rw [List.reduceOption_mem_iff, shape]
    exact List.mem_append_right _ List.mem_cons_self
  apply forall_congr'
  intro r
  apply imp_congr_right
  intro _
  apply imp_congr_right
  intro _
  rw [retrievePlocksCodes_has ran]
  apply or_congr_right
  exact ⟨fun reads => ⟨there reads, reads⟩, And.right⟩

/-- The plock state of a node with one lock. -/
def oneLockSpace : Lockspace :=
  { plockResources :=
      [{ number := 7
         owner := 0
         gotUnown := true
         locks :=
           [{ pid := 10, owner := 1, start := 0, stop := 9, ex := 1,
              nodeid := 1, syncing := false }]
         waiters := []
         pending := [] }]
    savedMessages := []
    needPlocks := false
    savePlocks := false }

/-- Node 2 joins node 1, which has one lock and finds no old checkpoint. -/
def oneLockHandover (codes : List SaCode) (listed : List Section)
    (replies : List SaCode) : Handover :=
  { writer := memberEnv 1
    source := oneLockSpace
    service := { named := none, handle := false }
    codes := .failed :: .failed :: codes
    reader := memberEnv 2
    joiner :=
      { plockResources := []
        savedMessages := []
        needPlocks := true
        savePlocks := true }
    listed := listed.map some
    replies := replies.map fun code => { code := code, missing := 0 } }

def smoothHandover : Handover :=
  oneLockHandover [.ok, .ok] (storePlocks (memberEnv 1) oneLockSpace)
    [.ok, .ok, .ok, .ok, .noSections]

theorem smoothHandover_complete :
    ∃ read final, smoothHandover.Ends read final ∧
      smoothHandover.Complete read := by
  have ends : smoothHandover.Ends
      (retrievePlocks (memberEnv 2) (storePlocks (memberEnv 1) oneLockSpace)
        smoothHandover.joiner)
      (receivePlocksStored (memberEnv 2)
        (storePlocks (memberEnv 1) oneLockSpace) smoothHandover.joiner).1 := by
    refine ⟨rfl, ⟨_, rfl, ?_⟩, rfl, ⟨_, rfl⟩, rfl⟩
    exact .refl _
  obtain ⟨left, -, same, complete⟩ := handover_complete_iff _ ends
  refine ⟨_, _, ends, complete.mpr ?_⟩
  intro r member _
  cases List.mem_singleton.mp member
  have number (data : List PackPlock) :
      sectionNumber { id := sectionId 7 0, data := data } = 7 :=
    congrArg (·.1.getD 0) (scanSectionId_sectionId 7 0)
  refine .inr ⟨⟨_, same.mem_iff.mp List.mem_cons_self, number _⟩, ?_⟩
  refine ⟨[], _, [], rfl, number _, ?_⟩
  exact ⟨List.replicate 3 ⟨.ok, 0⟩, ⟨.ok, 0⟩, [⟨.noSections, 0⟩], rfl, rfl,
    by decide, rfl, rfl⟩

/-- A store that fails is announced all the same. -/
theorem failedStore_incomplete :
    ¬∀ (h : Handover) (read final : Lockspace),
      h.Ends read final → h.Complete read := by
  intro always
  have complete := always (oneLockHandover [.failed] [] [.failed])
    (oneLockHandover [.failed] [] [.failed]).joiner _
    ⟨rfl, ⟨_, rfl, .refl _⟩, rfl, ⟨_, rfl⟩, rfl⟩
  obtain ⟨r, member, -⟩ := complete _ List.mem_cons_self rfl
  cases member

end Dlm.Plock
