import Dlm.Cluster.Steps
import Dlm.Plock.Restore

/-!
# The daemons follow the agreed state

The relation of a resource to the agreed state is lifted to whole daemons, and
the steps of a run are shown to keep it, among them the checkpoint that a
member stores and a joining node restores.
-/

namespace Dlm.Cluster

open Plock Broadcast

variable {slot : Option Resource}

/-- The lockspace with one resource or none, of a member or of a node that is
about to become one. -/
def hosting (joining : Bool) (slot : Option Resource) : Lockspace :=
  { plockResources := slot.toList
    savedMessages := []
    needPlocks := joining
    savePlocks := joining }

theorem hosting_injective {joining : Bool} {other : Option Resource}
    (same : hosting joining slot = hosting joining other) : slot = other := by
  have lists : slot.toList = other.toList :=
    congrArg Lockspace.plockResources same
  cases slot with
  | none => cases other <;> simp_all
  | some r => cases other <;> simp_all

/-- The lockspace of a node that saves messages. -/
def saving (messages : List Message) : Lockspace :=
  { plockResources := []
    savedMessages := messages
    needPlocks := true
    savePlocks := true }

section Hosting

variable {c : Config} {mode : Mode} {n : Nodeid} {out : List Body}
  {g : Agreed}

theorem Config.Follows.numbered (follows : c.Follows mode n slot out g) :
    ∀ r, slot = some r → r.number = c.number := by
  intro r found
  cases follows with
  | absent => cases found
  | unclaimed number => cases found; exact number
  | follower _ number => cases found; exact number
  | owner number => cases found; exact number
  | releasing _ _ _ _ number => cases found; exact number
  | shared number => cases found; exact number

/-- A node that follows a shared resource has it. -/
theorem Config.Follows.of_unowned {table : Table}
    (follows : c.Follows mode n slot out (.unowned table)) :
    ∃ r, slot = some r ∧ r.owner = 0 ∧ r.table = table := by
  cases follows with
  | shared _ owner _ same => exact ⟨_, rfl, owner, same⟩

theorem searchResource_toList
    (numbered : ∀ r, slot = some r → r.number = c.number) :
    searchResource slot.toList c.number = slot := by
  cases slot with
  | none => rfl
  | some r => simp [searchResource, numbered r rfl]

theorem putSlot_toList {next : Option Resource}
    (numbered : ∀ r, slot = some r → r.number = c.number) :
    putSlot c.number next slot.toList = next.toList := by
  cases slot with
  | none => rfl
  | some r => simp [putSlot, numbered r rfl]

/-- A handler on the resource. -/
theorem onSlot_hosting (joining : Bool)
    (numbered : ∀ r, slot = some r → r.number = c.number)
    (handler : Option Resource → Option Resource × List Effect) :
    (hosting joining slot).onSlot c.number handler =
      (hosting joining (handler slot).1, (handler slot).2) := by
  simp only [Lockspace.onSlot, hosting, searchResource_toList numbered,
    putSlot_toList numbered]

theorem receiveNow_hosting (joining : Bool) {message : Message}
    (numbered : ∀ r, slot = some r → r.number = c.number)
    (named : message.info.number = c.number) (env : Env) :
    receiveNow env (hosting joining slot) message =
      (hosting joining (receiveSlot env message slot).1,
        (receiveSlot env message slot).2) := by
  rw [receiveNow, named, onSlot_hosting joining numbered]

/-- The failure of a node, as seen by a member. -/
theorem purgePlocks_hosting (env : Env) (nodeid : Int32) :
    (purgePlocks env (hosting false slot) nodeid false).1 =
        hosting false (slot.bind fun r => (purgeResource env nodeid false r).1) ∧
      bodies (purgePlocks env (hosting false slot) nodeid false).2 =
        bodies ((slot.map fun r =>
          (purgeResource env nodeid false r).2).getD []) := by
  have touched (sum : Nat) : bodies (if sum = 0 then [] else
      [Effect.plockTime]) = [] := by
    split <;> rfl
  cases slot with
  | none => exact ⟨rfl, rfl⟩
  | some r =>
      refine ⟨?_, ?_⟩
      · simp only [purgePlocks, hosting, Option.toList_some, List.map_cons,
          List.map_nil, Option.bind_some, List.filterMap_cons]
        cases (purgeResource env nodeid false r).1 with
        | none => rfl
        | some s => rfl
      · simp only [purgePlocks, bodies_append, touched, List.append_nil]
        simp [hosting]

/-- `drop_resources` of a member either does nothing or drops an unused
resource. -/
theorem dropResources_hosting (env : Env) (aged : Bool) :
    dropResources env (fun _ => aged) (hosting false slot) =
        (hosting false slot, []) ∨
      ∃ r, slot = some r ∧ (r.locks = [] ∧ r.waiters = []) ∧
        dropResources env (fun _ => aged) (hosting false slot) =
          (hosting false (some (dropResource env r).1), (dropResource env r).2) := by
  cases slot with
  | none =>
      left
      simp [dropResources, hosting, dropResourcesLoop]
  | some r =>
      cases count : env.dropResourcesCount with
      | zero =>
          left
          simp [dropResources, hosting, dropResourcesLoop, count]
      | succ budget =>
          by_cases skipped : (r.owner ≠ 0 ∧ r.owner ≠ env.ourNodeid) ∨
              !aged ∨ !(r.locks.isEmpty && r.waiters.isEmpty)
          · left
            simp only [dropResources, hosting, Option.toList_some,
              List.reverse_singleton, dropResourcesLoop, count, skipped,
              if_true]
          · right
            refine ⟨r, rfl, ?_, ?_⟩
            · simp only [not_or, Bool.not_eq_true', Bool.not_eq_false,
                Bool.and_eq_true, List.isEmpty_iff] at skipped
              exact skipped.2.2
            · simp only [dropResources, hosting, Option.toList_some,
                List.reverse_singleton, dropResourcesLoop, count, skipped,
                if_false, List.append_nil]

end Hosting

section Checkpoint

variable {c : Config} {mode : Mode} {n m : Nodeid} {r : Resource}
  {out : List Body} {g : Agreed}

/-- The flags of what an environment allocates are cleared. -/
def Cleared (env : Env) : Prop :=
  (∀ info, env.waiterJunk info = false) ∧ ∀ po, env.lockJunk po = false

theorem unpackSectionBuf_unflagged
    (restores : mode.stores m = true → Cleared (c.env m))
    (section_ : Section) :
    mode.Unflagged m (unpackSectionBuf (c.env m) section_) := by
  intro stores
  obtain ⟨waiterFlags, lockFlags⟩ := restores stores
  refine ⟨?_, ?_⟩
  · intro po member
    obtain ⟨pp, _, rfl⟩ := List.mem_map.mp member
    exact lockFlags _
  · intro w member
    obtain ⟨pp, _, rfl⟩ := List.mem_map.mp member
    exact waiterFlags _

theorem filter_clear {α : Type} {flag : α → Bool} {entries : List α}
    {index : Nat}
    (clear : ∀ entry ∈ entries.take index, flag entry = false)
    (set : ∀ entry ∈ entries.drop index, flag entry = true) :
    entries.filter (fun entry => !flag entry) = entries.take index := by
  conv_lhs => rw [← List.take_append_drop index entries]
  have front : (entries.take index).filter (fun entry => !flag entry) =
      entries.take index := by
    apply List.filter_eq_self.mpr
    intro entry member
    simp [clear entry member]
  have back : (entries.drop index).filter (fun entry => !flag entry) =
      [] := by
    apply List.filter_eq_nil_iff.mpr
    intro entry member
    simp [set entry member]
  rw [List.filter_append, front, back, List.append_nil]

/-- The table in a section holds what has been announced. -/
theorem restoredTable_flagged {locks waiters : Nat} {env : Env}
    (stores : mode.stores n = true)
    (flagged : mode.FlaggedFrom n locks waiters r)
    (claimed : r.owner ≠ -1) (notOurs : r.owner ≠ env.ourNodeid) :
    restoredTable env r = r.table.cut locks waiters := by
  obtain ⟨⟨locksClear, locksSet⟩, waitersClear, waitersSet⟩ := flagged stores
  rw [restoredTable, if_neg (not_or.mpr ⟨claimed, notOurs⟩),
    filter_clear locksClear locksSet, filter_clear waitersClear waitersSet]
  simp [Resource.table, Table.cut]

theorem restoredTable_unflagged {env : Env}
    (stores : mode.stores n = true) (unflagged : mode.Unflagged n r) (claimed : r.owner ≠ -1)
    (notOurs : r.owner ≠ env.ourNodeid) :
    restoredTable env r = r.table := by
  obtain ⟨locks, waiters⟩ := unflagged stores
  have flagged : mode.FlaggedFrom n r.locks.length r.waiters.length r := by
    intro _
    simpa using ⟨locks, waiters⟩
  rw [restoredTable_flagged stores flagged claimed notOurs, Table.cut]
  simp only [Resource.table, Table.mk.injEq]
  exact ⟨List.take_of_length_le (by simp), List.take_of_length_le (by simp)⟩

/-- A node that is not the owner restores from a section what the agreed state
says. -/
theorem Config.Follows.restored {owner : Int32} {table : Table}
    (restores : mode.stores m = true → Cleared (c.env m))
    (number : r.number = c.number)
    (named : sectionOwner (c.env n) r = some owner)
    (same : restoredTable (c.env n) r = table)
    (follows : ∀ s : Resource, s.number = c.number → s.owner = owner →
      s.gotUnown = false → s.table = table → mode.Unflagged m s →
      s.pending = [] → c.Follows mode m (some s) [] g) :
    ∃ restored : Option Resource,
      ([r].filterMap (storeResource (c.env n))).map
          (unpackSectionBuf (c.env m)) = restored.toList ∧
        c.Follows mode m restored [] g := by
  have stored : storeResource (c.env n) r =
      some { id := sectionId r.number owner
             data := packSectionBuf (c.env n) r } := by
    rw [storeResource, named]
    rfl
  obtain ⟨sameNumber, sameOwner, sameTable⟩ :=
    unpackSectionBuf_storeResource (c.env m) stored
  refine ⟨some (unpackSectionBuf (c.env m) _), by simp [stored]; rfl, ?_⟩
  apply follows
  · exact sameNumber.trans number
  · rw [sameOwner, restoredOwner, named]
    rfl
  · rfl
  · exact sameTable.trans same
  · exact unpackSectionBuf_unflagged restores _
  · rfl

theorem releaseBody_releases (number : UInt64) :
    (releaseBody number).Releases :=
  ⟨rfl, rfl⟩

/-- Only an owner waits for its release. -/
theorem Config.Follows.owned_of_release
    (follows : c.Follows mode n slot out g)
    (waiting : releaseBody c.number ∈ out) : g.OwnedBy n := by
  rcases follows.promises with early | ⟨_, late⟩ | ⟨owned, _⟩
  · exact absurd (releaseBody_releases _) (early _ waiting).not_release
  · exact absurd (releaseBody_releases _) (late _ waiting).not_release
  · exact owned

/-- The owner that a member stores is the agreed one. -/
theorem Config.Follows.sectionOwner
    (follows : c.Follows mode n (some r) out g)
    (unowned : r.owner = 0 →
      r.gotUnown = true ∨ releaseBody c.number ∈ out) :
    Plock.sectionOwner (c.env n) r = g.owner := by
  cases follows with
  | unclaimed number owner => simp [Plock.sectionOwner, owner, Agreed.owner]
  | @follower _ _ holder asked table other number owner =>
      have foreign : holder.val ≠ n.val :=
        fun same => other (Subtype.ext same)
      simp [Plock.sectionOwner, owner, Agreed.owner, c.ourNodeid, foreign,
        holder.ne_zero, holder.ne_minus_one]
  | owner number owner =>
      simp [Plock.sectionOwner, owner, Agreed.owner, c.ourNodeid,
        n.ne_minus_one]
  | releasing locks waiters before after number owner got =>
      simp [Plock.sectionOwner, owner, got, Agreed.owner, c.ourNodeid,
        Ne.symm n.ne_zero]
  | shared number owner pending same unflagged late =>
      rcases unowned owner with got | waiting
      · simp [Plock.sectionOwner, owner, got, Agreed.owner, c.ourNodeid,
          Ne.symm n.ne_zero]
      · exact absurd (releaseBody_releases _) (late _ waiting).not_release

/-- What a member stores, every node but the owner restores. -/
theorem Config.Follows.stored (follows : c.Follows mode n slot out g)
    (stores : mode.stores n = true)
    (restores : mode.stores m = true → Cleared (c.env m))
    (unowned : ∀ r, slot = some r → r.owner = 0 →
      r.gotUnown = true ∨ releaseBody c.number ∈ out)
    (notOwner : ¬g.OwnedBy m) :
    ∃ restored : Option Resource,
      (slot.toList.filterMap (storeResource (c.env n))).map
          (unpackSectionBuf (c.env m)) = restored.toList ∧
        c.Follows mode m restored [] g := by
  have nothing {P : Body → Prop} : ∀ body ∈ ([] : List Body), P body := by
    simp
  have noneWait {pending : List Info} (empty : pending = []) :
      c.Waits m pending := by
    simp [Config.Waits, empty]
  have named : ∀ r, slot = some r →
      Plock.sectionOwner (c.env n) r = g.owner := by
    rintro r rfl
    exact follows.sectionOwner (unowned r rfl)
  cases follows with
  | absent => exact ⟨none, rfl, .absent nothing⟩
  | @unclaimed r _ number owner =>
      have skipped : storeResource (c.env n) r = none := by
        rw [storeResource, named r rfl]
        rfl
      exact ⟨none, by simp [skipped], .absent nothing⟩
  | @follower r _ holder asked table other number owner got same unflagged
      waits early =>
      have foreign : r.owner ≠ (c.env n).ourNodeid := by
        rw [owner, c.ourNodeid]
        exact fun equal => other (Subtype.ext equal)
      have notThem : holder ≠ m := by
        rintro rfl
        exact notOwner ⟨asked, table, rfl⟩
      apply Config.Follows.restored restores number (named r rfl)
        ((restoredTable_unflagged stores unflagged
          (by rw [owner]; exact holder.ne_minus_one) foreign).trans same)
      intro s sNumber sOwner sGot sTable sUnflagged sPending
      exact .follower notThem sNumber sOwner sGot sTable sUnflagged
        (noneWait sPending) nothing
  | @owner r _ number owner got pending holding early =>
      have notThem : n ≠ m := by
        rintro rfl
        exact notOwner ⟨_, _, rfl⟩
      apply Config.Follows.restored restores number (named r rfl)
        (if_pos (.inr (by rw [owner, c.ourNodeid])))
      intro s sNumber sOwner sGot sTable sUnflagged sPending
      exact .follower notThem sNumber sOwner sGot sTable sUnflagged
        (noneWait sPending) nothing
  | @releasing r _ asked table locks waiters before after number owner got
      pending holding order flagged early late split same =>
      have notThem : n ≠ m := by
        rintro rfl
        exact notOwner ⟨_, _, rfl⟩
      apply Config.Follows.restored restores number (named r rfl)
        ((restoredTable_flagged stores flagged (by rw [owner]; decide)
          (by rw [owner, c.ourNodeid]; exact Ne.symm n.ne_zero)).trans same)
      intro s sNumber sOwner sGot sTable sUnflagged sPending
      exact .follower notThem sNumber sOwner sGot sTable sUnflagged
        (noneWait sPending) nothing
  | @shared r _ table number owner pending same unflagged late =>
      apply Config.Follows.restored restores number (named r rfl)
        ((restoredTable_unflagged stores unflagged (by rw [owner]; decide)
          (by rw [owner, c.ourNodeid]; exact Ne.symm n.ne_zero)).trans same)
      intro s sNumber sOwner sGot sTable sUnflagged sPending
      exact .shared sNumber sOwner sPending sTable sUnflagged nothing

/-- Nobody becomes the owner by a message of another node. -/
theorem Agreed.not_owned_receive {p : Nodeid} {body : Body} (other : p ≠ n)
    (notOwner : ¬g.OwnedBy n) : ¬(g.receive p body).OwnedBy n := by
  rintro ⟨asked, table, owned⟩
  cases g with
  | none =>
      simp only [Agreed.receive] at owned
      split at owned
      case h_2 =>
        simp only [Agreed.own] at owned
        split at owned
        · cases owned
        · split at owned
          · cases owned
            exact other rfl
          · cases owned
      all_goals cases owned
  | owned owner wasAsked announced =>
      have same : owner = n := by
        simp only [Agreed.receive] at owned
        split at owned
        case h_2 =>
          simp only [Agreed.own] at owned
          split at owned
          · split at owned
            · cases owned
            · exact (Agreed.owned.inj owned).1
          · split at owned <;> exact (Agreed.owned.inj owned).1
        case h_4 =>
          simp only [Agreed.sync] at owned
          split at owned <;> exact (Agreed.owned.inj owned).1
        case h_5 =>
          simp only [Agreed.sync] at owned
          split at owned <;> exact (Agreed.owned.inj owned).1
        all_goals exact (Agreed.owned.inj owned).1
      exact notOwner ⟨wasAsked, announced, by rw [same]⟩
  | unowned shown =>
      by_cases drop : body.type = .drop
      · simp only [Agreed.receive, drop, Agreed.drop] at owned
        split at owned <;> cases owned
      · have shared : (Agreed.unowned shown).Shared := ⟨shown, rfl⟩
        obtain ⟨_, still⟩ := @Agreed.Shared.receive p _ body shared drop
        rw [still] at owned
        cases owned

/-- The saved messages are replayed over the restored state. -/
theorem Config.Follows.replay {start : Agreed}
    {sent : List (Nodeid × Body)}
    (tidy : c.Tidy mode)
    (follows : c.Follows mode n slot out g)
    (chain : (c.agreement mode start).Chain g
      (sent.map fun pair => .message pair.1 pair.2))
    (foreign : ∀ pair ∈ sent, pair.1 ≠ n) (notOwner : ¬g.OwnedBy n) :
    ∃ next, (processSavedLoop (c.env n)
          (sent.map fun pair => pair.2.message pair.1)
          (hosting true slot)).1 = hosting true next ∧
        c.Follows mode n next
          (out ++ bodies (processSavedLoop (c.env n)
            (sent.map fun pair => pair.2.message pair.1)
            (hosting true slot)).2)
          ((c.agreement mode start).after g
            (sent.map fun pair => .message pair.1 pair.2)) := by
  induction sent generalizing slot out g with
  | nil =>
      refine ⟨slot, rfl, ?_⟩
      simp only [List.map_nil, processSavedLoop, bodies_nil, List.append_nil]
      exact follows
  | cons pair later induction =>
      obtain ⟨other, foreignLater⟩ := List.forall_mem_cons.mp foreign
      obtain ⟨admissible, chainLater⟩ := chain
      have calm : c.Calm mode slot out pair.2 := by
        intro _ _ _ waiting
        exact absurd (follows.owned_of_release waiting) notOwner
      have next := follows.message_other tidy other admissible calm
      have received : receiveNow (c.env n) (hosting true slot)
          (pair.2.message pair.1) = _ :=
        receiveNow_hosting true follows.numbered admissible.1 (c.env n)
      obtain ⟨last, reached, lastFollows⟩ := induction next chainLater
        foreignLater (Agreed.not_owned_receive other notOwner)
      simp only [List.map_cons, processSavedLoop, received]
      refine ⟨last, reached, ?_⟩
      rw [bodies_append, ← List.append_assoc]
      exact lastFollows

end Checkpoint

section Laws

variable (c : Config) (mode : Mode)

/-- A member follows the agreed state. -/
def Config.Member (n : Nodeid) (daemon : Daemon) (out : List Body)
    (g : Agreed) : Prop :=
  ∃ slot, daemon.ls = hosting false slot ∧ c.Follows mode n slot out g

/-- A joining node has saved the messages of the entries. -/
def SavedEntries (daemon : Daemon) (entries : List (Entry Nodeid Body)) :
    Prop :=
  ∃ sent : List (Nodeid × Body),
    entries = sent.map (fun pair => .message pair.1 pair.2) ∧
      daemon.ls = saving (sent.map fun pair => pair.2.message pair.1)

/-- A node that restores a checkpoint clears the flags of what it allocates,
unless it stores none. -/
def Config.OkJoin (n : Nodeid) : Prop :=
  mode.stores n = true → Cleared (c.env n)

/-- The sections give every node but the owner what the agreed state says. -/
def Config.Stored (sections : List Section) (g : Agreed) : Prop :=
  ∀ n, c.OkJoin mode n → ¬g.OwnedBy n → ∃ slot : Option Resource,
    sections.map (unpackSectionBuf (c.env n)) = slot.toList ∧
      c.Follows mode n slot [] g

/-- Without drops, no `PLOCK_DROP` is sent. -/
def Config.OkAct (n : Nodeid) (action : Action) (daemon : Daemon) : Prop :=
  mode.drops = false → ∀ body ∈ (c.act n action daemon).2,
    body.type ≠ .drop

/-- A message does not disturb a node that waits for its release, and when a
node fails no waiter of such a node could be granted. -/
def Config.OkDeliver (entry : Entry Nodeid Body) (daemon : Daemon)
    (out : List Body) : Prop :=
  match entry with
  | .message _ body =>
      c.Calm mode (searchResource daemon.ls.plockResources c.number) out body
  | .down _ => mode.foreign = false ∧
      ∀ r, searchResource daemon.ls.plockResources c.number = some r →
        releaseBody c.number ∈ out → AllBlocked r

/-- A node that stores an unowned resource knows that it has been released. -/
def Config.OkSnapshot (n : Nodeid) (daemon : Daemon) (out : List Body) :
    Prop :=
  mode.stores n = true ∧
    ∀ r, searchResource daemon.ls.plockResources c.number = some r →
      r.owner = 0 → r.gotUnown = true ∨ releaseBody c.number ∈ out

/-- A joining node is not told of an owner before it saves messages. -/
def OkWaiting (entry : Entry Nodeid Body) : Prop :=
  ∀ sender body, entry = .message sender body → body.type ≠ .own

/-- No node fails while a joining node saves messages. -/
def OkSaving (entry : Entry Nodeid Body) : Prop :=
  ∀ node, entry ≠ .down node

variable {c mode} {n : Nodeid} {daemon : Daemon} {out : List Body}
variable {g : Agreed} {entry : Entry Nodeid Body}

/-- An operation read by a member. -/
theorem act_read (info : Info) (ls : daemon.ls = hosting false slot)
    (numbered : ∀ r, slot = some r → r.number = c.number) :
    c.act n (.read info) daemon =
      { daemon with
        reads := daemon.reads ++ [c.operation n daemon info] }.commit
          (hosting false (processPlock (c.env n) (c.operation n daemon info)
              slot).1,
            (processPlock (c.env n) (c.operation n daemon info) slot).2) := by
  have ours : { c.operation n daemon info with
      nodeid := (c.env n).ourNodeid } = c.operation n daemon info := by
    rw [c.ourNodeid]
    rfl
  have handled : (hosting false slot).onSlot c.number
      (processPlock (c.env n) (c.operation n daemon info)) = _ :=
    onSlot_hosting false numbered _
  rw [Config.act, processPlocks, ours, ls]
  exact congrArg _ handled

/-- `drop_resources` on a member. -/
theorem act_drop (aged : Bool) (ls : daemon.ls = hosting false slot) :
    c.act n (.drop aged) daemon = daemon.commit (hosting false slot, []) ∨
      ∃ r, slot = some r ∧ (r.locks = [] ∧ r.waiters = []) ∧
        c.act n (.drop aged) daemon = daemon.commit
          (hosting false (some (dropResource (c.env n) r).1),
            (dropResource (c.env n) r).2) := by
  rcases @dropResources_hosting slot (c.env n) aged with kept |
    ⟨r, found, unused, dropped⟩
  · left
    rw [Config.act, ls, kept]
  · right
    refine ⟨r, found, unused, ?_⟩
    rw [Config.act, ls, dropped]

/-- A message delivered to a member. -/
theorem handle_message {body : Body} (p : Nodeid)
    (ls : daemon.ls = hosting false slot)
    (numbered : ∀ r, slot = some r → r.number = c.number)
    (named : body.info.number = c.number) :
    c.algorithm.handle n (.message p body) daemon = daemon.commit
      (hosting false (receiveSlot (c.env n) (body.message p) slot).1,
        (receiveSlot (c.env n) (body.message p) slot).2) := by
  have received : receive (c.env n) (hosting false slot) (body.message p) =
      _ := receiveNow_hosting false numbered named (c.env n)
  simp only [Algorithm.handle, Config.algorithm, ls, received]

theorem Config.Member.act {action : Action}
    (member : c.Member mode n daemon out g)
    (ok : c.OkAct mode n action daemon) :
    c.Member mode n (c.act n action daemon).1
      (out ++ (c.act n action daemon).2) g := by
  obtain ⟨slot, ls, follows⟩ := member
  cases action with
  | read info =>
      rw [act_read info ls follows.numbered]
      exact ⟨_, rfl, follows.read rfl rfl⟩
  | drop aged =>
      rcases act_drop aged ls with kept | ⟨r, rfl, unused, dropped⟩
      · rw [kept]
        exact ⟨slot, rfl, by simpa [Daemon.commit] using follows⟩
      · simp only [Config.OkAct, dropped, Daemon.commit] at ok ⊢
        refine ⟨_, rfl, follows.dropResource unused ?_⟩
        rintro kept ⟨shared, got⟩
        apply ok kept { type := .drop, info := _ } _ rfl
        · exact { Info.cleared with number := r.number }
        · simp [dropResource, c.ourNodeid, shared, got, Ne.symm n.ne_zero,
            sendDrop, sendStructInfo]

theorem Config.Member.deliver {start : Agreed}
    (tidy : c.Tidy mode)
    (member : c.Member mode n daemon (own n [entry] ++ out) g)
    (admitted : (c.agreement mode start).Admits g entry)
    (alive : entry ≠ .down n)
    (ok : c.OkDeliver mode entry daemon (own n [entry] ++ out)) :
    c.Member mode n (c.algorithm.handle n entry daemon).1
      (out ++ (c.algorithm.handle n entry daemon).2)
      (g.advance entry) := by
  obtain ⟨slot, ls, follows⟩ := member
  have found : searchResource daemon.ls.plockResources c.number = slot := by
    rw [ls]
    exact searchResource_toList follows.numbered
  cases entry with
  | message p body =>
      simp only [Config.OkDeliver, found] at ok
      rw [handle_message p ls follows.numbered admitted.1]
      refine ⟨_, rfl, ?_⟩
      by_cases same : p = n
      · subst same
        rw [own_message_self] at follows ok
        exact follows.message_us tidy ok
      · rw [own_message_other same] at follows ok
        exact follows.message_other tidy same admitted ok
  | down node =>
      simp only [Config.OkDeliver, found] at ok
      have other : node ≠ n := by
        rintro rfl
        exact alive rfl
      have nothing : own n [Entry.down node] = ([] : List Body) := rfl
      rw [nothing] at follows ok
      obtain ⟨confined, blocked⟩ := ok
      obtain ⟨purged, sent⟩ :=
        @purgePlocks_hosting slot (c.env n) node.val
      simp only [Algorithm.handle, Config.algorithm, Daemon.commit, ls, sent]
      refine ⟨_, purged, ?_⟩
      cases slot with
      | none =>
          cases follows with
          | absent early => exact .absent (by simpa using early)
      | some r => exact follows.purge other confined (blocked r rfl)

theorem Config.Member.stored
    (member : c.Member mode n daemon out g)
    (ok : c.OkSnapshot mode n daemon out) :
    c.Stored mode (storePlocks (c.env n) daemon.ls) g := by
  obtain ⟨slot, ls, follows⟩ := member
  obtain ⟨stores, unowned⟩ := ok
  intro m joins notOwner
  have found : searchResource daemon.ls.plockResources c.number = slot := by
    rw [ls]
    exact searchResource_toList follows.numbered
  rw [found] at unowned
  rw [storePlocks, ls]
  exact follows.stored stores joins unowned notOwner

/-- A node that waits to join has no resource. -/
theorem waiting_deliver (waiting : daemon.ls = NodeState.start.ls)
    (other : entry.source ≠ n) (ok : OkWaiting entry) :
    (c.algorithm.handle n entry daemon).1.ls = NodeState.start.ls ∧
      (c.algorithm.handle n entry daemon).2 = [] := by
  cases entry with
  | message p body =>
      have foreign : p.val ≠ n.val := fun same => other (Subtype.ext same)
      have claimed := ok p body rfl
      have ignored : receiveSlot (c.env n) (body.message p) none =
          (none, []) := by
        cases kind : body.type with
        | own => exact absurd kind claimed
        | plock =>
            simp only [receiveSlot, Body.message, kind, receivePlock1,
              findResource, c.ownership, c.ourNodeid]
            simp [foreign]
        | drop => simp [receiveSlot, Body.message, kind, receiveDrop1]
        | syncLock => simp [receiveSlot, Body.message, kind, receiveSync1]
        | syncWaiter => simp [receiveSlot, Body.message, kind, receiveSync1]
      simp [Algorithm.handle, Config.algorithm, Daemon.commit, waiting,
        receive, receiveNow, Lockspace.onSlot, NodeState.start,
        searchResource, putSlot, ignored]
  | down node =>
      simp [Algorithm.handle, Config.algorithm, Daemon.commit, waiting,
        purgePlocks, NodeState.start]

theorem SavedEntries.deliver {entries : List (Entry Nodeid Body)}
    (saved : SavedEntries daemon entries) (ok : OkSaving entry) :
    SavedEntries (c.algorithm.handle n entry daemon).1 (entries ++ [entry]) ∧
      (c.algorithm.handle n entry daemon).2 = [] := by
  obtain ⟨sent, rfl, ls⟩ := saved
  cases entry with
  | message p body =>
      refine ⟨⟨sent ++ [(p, body)], by simp, ?_⟩, ?_⟩
      · simp [Algorithm.handle, Config.algorithm, Daemon.commit, ls, receive,
          saving, saveMessage]
      · simp [Algorithm.handle, Config.algorithm, Daemon.commit, ls, receive,
          saving]
  | down node => exact absurd rfl (ok node)

/-- A node that has saved the messages since the checkpoint was stored becomes
a member. -/
theorem Config.Stored.restore {start : Agreed} {sections : List Section}
    {entries : List (Entry Nodeid Body)}
    (tidy : c.Tidy mode) (joins : c.OkJoin mode n)
    (stored : c.Stored mode sections g) (notOwner : ¬g.OwnedBy n)
    (chain : (c.agreement mode start).Chain g entries)
    (silent : ∀ entry ∈ entries, entry.source ≠ n)
    (saved : SavedEntries daemon entries) :
    c.Member mode n (c.algorithm.restore n sections daemon).1
      (c.algorithm.restore n sections daemon).2
      ((c.agreement mode start).after g entries) := by
  obtain ⟨sent, rfl, ls⟩ := saved
  obtain ⟨slot, restored, follows⟩ := stored n joins notOwner
  have foreign : ∀ pair ∈ sent, pair.1 ≠ n := by
    intro pair member
    exact silent _ (List.mem_map_of_mem member)
  obtain ⟨next, reached, nextFollows⟩ := follows.replay
    tidy chain foreign notOwner
  have retrieved : processSavedPlocks (c.env n)
      (retrievePlocks (c.env n) sections daemon.ls) =
        processSavedLoop (c.env n)
          (sent.map fun pair => pair.2.message pair.1)
          (hosting true slot) := by
    simp [processSavedPlocks, retrievePlocks, ls, saving, hosting, restored]
  simp only [Config.algorithm, Daemon.commit, receivePlocksStored, retrieved]
  refine ⟨next, ?_, by simpa using nextFollows⟩
  rw [reached]
  rfl

/-- A failure neither makes a node the owner nor takes the resource from a
surviving owner. -/
theorem Agreed.owned_remove_iff {node : Nodeid} (other : node ≠ n) :
    (g.remove node).OwnedBy n ↔ g.OwnedBy n := by
  cases g with
  | none => exact Iff.rfl
  | owned owner asked table =>
      simp only [Agreed.remove]
      split
      · rename_i same
        refine ⟨?_, ?_⟩
        · rintro ⟨_, _, impossible⟩
          cases impossible
        · rintro ⟨_, _, owned⟩
          exact absurd (same.symm.trans (Agreed.owned.inj owned).1) other
      · refine ⟨?_, ?_⟩
        · rintro ⟨_, _, owned⟩
          exact ⟨asked, table, by rw [(Agreed.owned.inj owned).1]⟩
        · rintro ⟨_, _, owned⟩
          exact ⟨asked, _, by rw [(Agreed.owned.inj owned).1]⟩
  | unowned table =>
      refine ⟨?_, ?_⟩ <;>
      · rintro ⟨_, _, impossible⟩
        cases impossible

theorem Config.Promises.remove {node : Nodeid} (other : node ≠ n)
    (promises : c.Promises mode n out g) :
    c.Promises mode n out (g.remove node) := by
  rcases promises with early | ⟨⟨table, rfl⟩, late⟩ | ⟨owned, rest⟩
  · exact .inl early
  · exact .inr (.inl ⟨⟨_, rfl⟩, late⟩)
  · exact .inr (.inr ⟨(Agreed.owned_remove_iff other).mpr owned, rest⟩)

theorem Config.Promises.step {start : Agreed}
    (promises : c.Promises mode n (own n [entry] ++ out) g)
    (admitted : (c.agreement mode start).Admits g entry)
    (alive : entry ≠ .down n) :
    c.Promises mode n out (g.advance entry) := by
  cases entry with
  | message p body =>
      by_cases same : p = n
      · subst same
        rw [own_message_self] at promises
        exact promises.message_us
      · rw [own_message_other same] at promises
        exact promises.message_other same admitted
  | down node =>
      apply promises.remove
      rintro rfl
      exact alive rfl

theorem Agreed.not_owned_advance (notOwner : ¬g.OwnedBy n)
    (other : entry.source ≠ n) : ¬(g.advance entry).OwnedBy n := by
  cases entry with
  | message p body => exact Agreed.not_owned_receive other notOwner
  | down node => exact (Agreed.owned_remove_iff other).not.mpr notOwner

theorem Agreed.not_owned_down : ¬(g.remove n).OwnedBy n := by
  rintro ⟨asked, table, owned⟩
  cases g with
  | none => cases owned
  | owned owner _ _ =>
      simp only [Agreed.remove] at owned
      split at owned
      · cases owned
      · rename_i different
        exact different (Agreed.owned.inj owned).1
  | unowned shown => cases owned

/-- The daemons follow the agreed state. -/
def Config.simulation (start : Agreed) (tidy : c.Tidy mode) :
    Simulation c.algorithm (c.agreement mode start) :=
  { Rel := c.Member mode
    Promise := c.Promises mode
    Vacant := fun n g => ¬g.OwnedBy n
    Waiting := fun n daemon =>
      daemon.ls = NodeState.start.ls ∧ c.OkJoin mode n
    Saving := fun n daemon entries =>
      SavedEntries daemon entries ∧ c.OkJoin mode n
    Stored := c.Stored mode
    okAct := c.OkAct mode
    okDeliver := fun _ => c.OkDeliver mode
    okSnapshot := c.OkSnapshot mode
    okJoin := c.OkJoin mode
    okWaiting := fun _ => OkWaiting
    okSaving := fun _ => OkSaving
    promise := fun ⟨_, _, follows⟩ => follows.promises
    promise_head := fun promises => promises.head
    promise_step := fun promises admitted alive =>
      promises.step admitted alive
    act := fun member ok => member.act ok
    deliver := fun member admitted alive ok =>
      member.deliver tidy admitted alive ok
    snapshot := fun member ok => member.stored ok
    vacant_down := Agreed.not_owned_down
    vacant_step := fun vacant _ other => Agreed.not_owned_advance vacant other
    waiting_fresh := fun joins => ⟨rfl, joins⟩
    waiting_deliver := fun waiting other ok =>
      have next := waiting_deliver waiting.1 other ok
      ⟨⟨next.1, waiting.2⟩, next.2⟩
    save := fun waiting => ⟨⟨[], rfl, by
      simp [Config.algorithm, waiting.1, preparePlocks, NodeState.start,
        saving]⟩, waiting.2⟩
    saving_deliver := fun saved ok =>
      have next := saved.1.deliver ok
      ⟨⟨next.1, saved.2⟩, next.2⟩
    restore := fun stored vacant chain silent saved =>
      stored.restore tidy saved.2 vacant chain silent saved.1 }

end Laws

end Dlm.Cluster
