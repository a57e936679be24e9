import Reliaburger.Library.Runs

/-! The recovery fence: which recovery epoch a node holds, which Raft messages it serves, and when
it stops serving for good because a newer recovery, or another one at its own epoch, replaced its
council. It never goes back on its claim, the newest epoch it knows or being fenced. A restart
starts from the record on disk, so across it the same holds of what the record says. And two nodes
of different recoveries cannot exchange a message without fencing one of them.
-/

namespace Reliaburger

-- Claims and snapshots

/-- The recovery a council descends from: its epoch and the id of the recovery that started it. -/
structure RecoveryClaim where
  epoch : Nat
  id : Option Nat
deriving DecidableEq, Repr

/-- The same epoch from a different recovery. An unknown id never conflicts. -/
def RecoveryClaim.conflictsWith (claim other : RecoveryClaim) : Bool :=
  claim.epoch == other.epoch
  && match claim.id, other.id with
    | some mine, some theirs => mine != theirs
    | _, _ => false

inductive FenceState where
  /-- No council yet: the node adopts the first one that contacts it. -/
  | unclaimed
  /-- A restarted member that does not serve yet. -/
  | probing
  | serving
  | fenced (newerEpoch : Nat)
  | split (otherId : Nat)
deriving DecidableEq, Repr

structure FenceSnapshot where
  /-- The epoch held; while unclaimed, the floor for adoption. -/
  epoch : Nat
  recoveryId : Option Nat
  state : FenceState
deriving DecidableEq, Repr

namespace FenceSnapshot

variable (snapshot : FenceSnapshot)

def claim : Option RecoveryClaim :=
  match snapshot.state with
  | .unclaimed => none
  | _ => some ⟨snapshot.epoch, snapshot.recoveryId⟩

/-- The epoch that fenced the node: a newer one, or its own after a split. -/
def fencedBy : Option Nat :=
  match snapshot.state with
  | .fenced newerEpoch => some newerEpoch
  | .split _ => some snapshot.epoch
  | _ => none

def splitWith : Option Nat :=
  match snapshot.state with
  | .split otherId => some otherId
  | _ => none

def isFenced : Bool :=
  snapshot.fencedBy.isSome

def newestKnownEpoch : Nat :=
  max (snapshot.fencedBy.getD snapshot.epoch) snapshot.epoch

def refusalClaim : RecoveryClaim :=
  let newest := snapshot.newestKnownEpoch
  ⟨newest,
    if newest = snapshot.epoch ∧ snapshot.state ≠ .unclaimed then snapshot.recoveryId else none⟩

/-- The claim stamped on an outgoing message, if the node may send any. -/
def outboundClaim : Option RecoveryClaim :=
  if snapshot.state = .serving then snapshot.claim else none

/-- Fence the node if the peer's epoch is newer than anything it knows; an unclaimed node only
remembers the floor. -/
def fenceIfNewer (peerEpoch : Nat) : FenceSnapshot :=
  if peerEpoch ≤ snapshot.newestKnownEpoch then snapshot
  else if snapshot.state = .unclaimed then { snapshot with epoch := peerEpoch }
  else { snapshot with state := .fenced peerEpoch }

def splitIfConflicting (peer : RecoveryClaim) : FenceSnapshot :=
  if snapshot.state = .serving ∨ snapshot.state = .probing then
    match snapshot.claim, peer.id with
    | some own, some otherId =>
      if own.conflictsWith peer then { snapshot with state := .split otherId } else snapshot
    | _, _ => snapshot
  else snapshot

end FenceSnapshot

namespace RecoveryFence

/-- What the accept side does with one message. -/
inductive Admission where
  | serve
  /-- Hand it to Raft once the adopted epoch is durable. -/
  | adopted
  | refuse (newest : RecoveryClaim)
deriving DecidableEq, Repr

/-- Decide about a message from `sender`, moving the fence if it reveals something new. -/
def admission (snapshot : FenceSnapshot) (sender : RecoveryClaim) : Admission × FenceSnapshot :=
  let refused :=
    let moved := (snapshot.fenceIfNewer sender.epoch).splitIfConflicting sender
    (.refuse moved.refusalClaim, moved)
  match snapshot.state with
  | .unclaimed =>
    if sender.epoch < snapshot.epoch then (.refuse snapshot.refusalClaim, snapshot)
    else (.adopted, ⟨sender.epoch, sender.id, .serving⟩)
  | .serving =>
    if snapshot.claim.any (fun own =>
        own.epoch == sender.epoch && !own.conflictsWith sender) then
      (.serve, snapshot)
    else refused
  | _ => refused

/-- A peer holds `peer`, as a reply or gossip says. The split check only runs where the epoch
moved nothing. -/
def observePeer (snapshot : FenceSnapshot) (peer : RecoveryClaim) : FenceSnapshot :=
  if snapshot.newestKnownEpoch < peer.epoch then snapshot.fenceIfNewer peer.epoch
  else snapshot.splitIfConflicting peer

def finishProbe (snapshot : FenceSnapshot) : FenceSnapshot :=
  if snapshot.state = .probing then { snapshot with state := .serving } else snapshot

end RecoveryFence

-- The record on disk

structure FenceRecord where
  epoch : Nat
  recoveryId : Option Nat
  fencedBy : Option Nat
  splitWith : Option Nat
deriving DecidableEq, Repr

def FenceRecord.snapshot (record : FenceRecord) (unfenced : FenceState) : FenceSnapshot where
  epoch := record.epoch
  recoveryId := record.recoveryId
  state :=
    match record.splitWith, record.fencedBy with
    | some otherId, _ => .split otherId
    | none, some newerEpoch => .fenced newerEpoch
    | none, none => unfenced

/-- What a node with this fence writes; nothing while it holds no epoch. -/
def FenceSnapshot.record (snapshot : FenceSnapshot) : Option FenceRecord :=
  snapshot.claim.map (fun _ =>
    ⟨snapshot.epoch, snapshot.recoveryId, snapshot.fencedBy, snapshot.splitWith⟩)

/-- A node's fence in memory, and the record at its path. -/
structure RecoveryFence where
  snapshot : FenceSnapshot
  file : Option FenceRecord
deriving DecidableEq, Repr

namespace RecoveryFence

/-- The starting fence of a node, from its record or else from its Raft snapshot. -/
def load (file : Option FenceRecord) (snapshotClaim : RecoveryClaim)
    (holdsCouncilState bootstrapping : Bool)
    : RecoveryFence where
  file
  snapshot :=
    match file with
    | some record => record.snapshot (if holdsCouncilState then .probing else .serving)
    | none =>
      ⟨snapshotClaim.epoch, snapshotClaim.id,
        if holdsCouncilState then .probing else if bootstrapping then .serving else .unclaimed⟩

/-- Write the record of the current fence; a node that holds no epoch writes nothing. -/
def persist (fence : RecoveryFence) : RecoveryFence :=
  { fence with file := fence.snapshot.record.or fence.file }

/-- What happens to a node's fence. -/
inductive Event where
  | receive (sender : RecoveryClaim)
  | observePeer (peer : RecoveryClaim)
  | finishProbe
  /-- A write of the record that succeeded. -/
  | persist
  /-- A restart, which finds the record at the fence's path. -/
  | restart (snapshotClaim : RecoveryClaim) (holdsCouncilState bootstrapping : Bool)
deriving DecidableEq, Repr

def step (fence : RecoveryFence) : Event → RecoveryFence
  | .receive sender => { fence with snapshot := (admission fence.snapshot sender).2 }
  | .observePeer peer => { fence with snapshot := observePeer fence.snapshot peer }
  | .finishProbe => { fence with snapshot := finishProbe fence.snapshot }
  | .persist => fence.persist
  | .restart snapshotClaim holdsCouncilState bootstrapping =>
    load fence.file snapshotClaim holdsCouncilState bootstrapping

end RecoveryFence

open RecoveryClaim RecoveryFence

-- Later snapshots

namespace FenceSnapshot

variable {snapshot before after last : FenceSnapshot} {sender peer : RecoveryClaim}

/-- What a later fence keeps of an earlier one. -/
structure Extends (before after : FenceSnapshot) : Prop where
  claim : ∀ held, before.claim = some held → after.claim = some held
  newest : before.newestKnownEpoch ≤ after.newestKnownEpoch
  fenced : before.isFenced = true → after.isFenced = true

theorem Extends.refl (snapshot : FenceSnapshot) : snapshot.Extends snapshot :=
  ⟨fun _ held => held, Nat.le_refl _, fun fenced => fenced⟩

theorem Extends.trans (first : before.Extends after) (second : after.Extends last)
    : before.Extends last :=
  ⟨fun held claimed => second.claim held (first.claim held claimed),
    first.newest.trans second.newest, fun fenced => second.fenced (first.fenced fenced)⟩

theorem newestKnownEpoch_unfenced (unfenced : snapshot.isFenced = false)
    : snapshot.newestKnownEpoch = snapshot.epoch := by
  rw [isFenced, Option.isSome_eq_false_iff, Option.isNone_iff_eq_none] at unfenced
  rw [newestKnownEpoch, unfenced, Option.getD_none, Nat.max_self]

/-- An unclaimed node holds nothing but its floor. -/
theorem Extends.ofUnclaimed (unclaimed : before.state = .unclaimed)
    (floor : before.epoch ≤ after.newestKnownEpoch)
    : before.Extends after := by
  have unfenced : before.isFenced = false := by rw [isFenced, fencedBy, unclaimed]; rfl
  refine ⟨fun held claimed => ?_, ?_, fun fenced => ?_⟩
  · rw [FenceSnapshot.claim, unclaimed] at claimed
    cases claimed
  · rwa [newestKnownEpoch_unfenced unfenced]
  · rw [unfenced] at fenced
    cases fenced

theorem epoch_le_newest (snapshot : FenceSnapshot)
    : snapshot.epoch ≤ snapshot.newestKnownEpoch :=
  Nat.le_max_right _ _

theorem claim_of_claimed (claimed : snapshot.state ≠ .unclaimed)
    : snapshot.claim = some ⟨snapshot.epoch, snapshot.recoveryId⟩ := by
  rw [claim]
  split
  · next unclaimed => exact absurd unclaimed claimed
  · rfl

section

variable (snapshot : FenceSnapshot)

theorem fenceIfNewer_extends (peerEpoch : Nat)
    : snapshot.Extends (snapshot.fenceIfNewer peerEpoch) := by
  rw [fenceIfNewer]
  split
  · exact .refl snapshot
  rename_i newer
  split
  · rename_i unclaimed
    refine .ofUnclaimed unclaimed (le_trans ?_ (epoch_le_newest _))
    exact (epoch_le_newest snapshot).trans (Nat.le_of_not_le newer)
  · rename_i claimed
    refine ⟨fun held before => ?_, ?_, fun _ => rfl⟩
    · rw [claim_of_claimed claimed] at before
      exact before
    · exact (Nat.le_of_not_le newer).trans (Nat.le_max_left _ _)

theorem splitIfConflicting_cases (peer : RecoveryClaim)
    : snapshot.splitIfConflicting peer = snapshot
      ∨ (snapshot.state = .serving ∨ snapshot.state = .probing)
        ∧ ∃ otherId,
          snapshot.splitIfConflicting peer = { snapshot with state := .split otherId } := by
  rw [splitIfConflicting]
  split
  · rename_i running
    split
    · split
      · exact .inr ⟨running, _, rfl⟩
      · exact .inl rfl
    · exact .inl rfl
  · exact .inl rfl

theorem splitIfConflicting_extends (peer : RecoveryClaim)
    : snapshot.Extends (snapshot.splitIfConflicting peer) := by
  rcases splitIfConflicting_cases snapshot peer with same | ⟨running, _, split⟩
  · rw [same]
    exact .refl snapshot
  rw [split]
  obtain ⟨_, _⟩ := snapshot
  rcases running with rfl | rfl
  · exact ⟨fun _ held => held, Nat.le_refl _, fun fenced => by cases fenced⟩
  · exact ⟨fun _ held => held, Nat.le_refl _, fun fenced => by cases fenced⟩

/-- A message moves the fence as a refusal does, or leaves it, or is adopted by an unclaimed
node. -/
theorem admission_extends (sender : RecoveryClaim)
    : snapshot.Extends (RecoveryFence.admission snapshot sender).2 := by
  have refused
      : snapshot.Extends ((snapshot.fenceIfNewer sender.epoch).splitIfConflicting sender) :=
    (fenceIfNewer_extends snapshot sender.epoch).trans (splitIfConflicting_extends _ sender)
  rw [admission]
  split
  · rename_i unclaimed
    split
    · exact .refl snapshot
    rename_i reached
    exact .ofUnclaimed unclaimed ((Nat.le_of_not_lt reached).trans
      (epoch_le_newest ⟨sender.epoch, sender.id, .serving⟩))
  · split
    · exact .refl snapshot
    · exact refused
  · exact refused

theorem observePeer_extends (peer : RecoveryClaim)
    : snapshot.Extends (RecoveryFence.observePeer snapshot peer) := by
  rw [observePeer]
  split
  · exact fenceIfNewer_extends snapshot peer.epoch
  · exact splitIfConflicting_extends snapshot peer

theorem finishProbe_extends
    : snapshot.Extends (RecoveryFence.finishProbe snapshot) := by
  rw [finishProbe]
  split
  · rename_i probing
    obtain ⟨_, _, state⟩ := snapshot
    obtain rfl : state = .probing := probing
    exact ⟨fun _ held => held, Nat.le_refl _, fun fenced => by cases fenced⟩
  · exact .refl snapshot

end

/-- A record says of a claimed fence all that a restart keeps. -/
theorem record_round_trip {record : FenceRecord} (written : snapshot.record = some record)
    : (record.snapshot .probing).Extends snapshot
      ∧ snapshot.Extends (record.snapshot .probing) := by
  obtain ⟨_, _, state⟩ := snapshot
  obtain ⟨held, claimed, rfl⟩ := Option.map_eq_some_iff.mp written
  cases state with
  | unclaimed => cases claimed
  | serving =>
    exact ⟨⟨fun _ held => held, Nat.le_refl _, fun fenced => by cases fenced⟩,
      ⟨fun _ held => held, Nat.le_refl _, fun fenced => by cases fenced⟩⟩
  | _ => exact ⟨.refl _, .refl _⟩

/-- Probing and serving nodes have the same claim and fence. -/
theorem snapshot_extends (record : FenceRecord) (holdsCouncilState : Bool)
    : (record.snapshot .probing).Extends
        (record.snapshot (if holdsCouncilState then .probing else .serving)) := by
  obtain ⟨_, _, fencedBy, splitWith⟩ := record
  cases splitWith with
  | some otherId => exact .refl _
  | none =>
    cases fencedBy with
    | some newerEpoch => exact .refl _
    | none =>
      cases holdsCouncilState with
      | true => exact .refl _
      | false =>
        exact ⟨fun _ held => held, Nat.le_refl _, fun fenced => by cases fenced⟩

-- Serving and exchanging messages

theorem not_serving_of_fenced (fenced : snapshot.isFenced = true)
    : snapshot.state ≠ .serving ∧ snapshot.state ≠ .unclaimed := by
  constructor
  all_goals
    intro state
    rw [isFenced, fencedBy, state] at fenced
    cases fenced

/-- A fenced node refuses every message and sends none. -/
theorem refuses_of_fenced (fenced : snapshot.isFenced = true) (sender : RecoveryClaim)
    : snapshot.outboundClaim = none
      ∧ ∃ newest, (RecoveryFence.admission snapshot sender).1 = .refuse newest := by
  obtain ⟨notServing, claimed⟩ := not_serving_of_fenced fenced
  refine ⟨if_neg notServing, ?_⟩
  rw [admission]
  split
  · next unclaimed => exact absurd unclaimed claimed
  · next serving => exact absurd serving notServing
  · exact ⟨_, rfl⟩

end FenceSnapshot

namespace RecoveryClaim

/-- The claim carries a recovery id exactly at epochs above 0. -/
def Identified (claim : RecoveryClaim) : Prop :=
  claim.id.isSome = true ↔ 0 < claim.epoch

variable {claim other : RecoveryClaim}

/-- Identified claims of one epoch that do not conflict are the same. -/
theorem eq_of_not_conflicts (identified : claim.Identified) (identified' : other.Identified)
    (sameEpoch : claim.epoch = other.epoch) (agree : claim.conflictsWith other = false)
    : claim = other := by
  obtain ⟨epoch, id⟩ := claim
  obtain ⟨epoch', id'⟩ := other
  obtain rfl : epoch = epoch' := sameEpoch
  have known : id.isSome = id'.isSome := by
    rw [Bool.eq_iff_iff]
    exact identified.trans identified'.symm
  cases id with
  | none =>
    cases id' with
    | none => rfl
    | some _ => cases known
  | some mine =>
    cases id' with
    | none => cases known
    | some theirs =>
      have same : mine = theirs := by simpa [conflictsWith] using agree
      rw [same]

end RecoveryClaim

namespace FenceSnapshot

variable {snapshot : FenceSnapshot} {sender : RecoveryClaim}

/-- Whatever the node claims is identified. -/
def Identified (snapshot : FenceSnapshot) : Prop :=
  ∀ held, snapshot.claim = some held → held.Identified

/-- A node serves only senders with exactly its own epoch and recovery id. -/
theorem claim_of_serve (identified : snapshot.Identified) (known : sender.Identified)
    (serves : (RecoveryFence.admission snapshot sender).1 = .serve)
    : snapshot.claim = some sender := by
  rw [admission] at serves
  split at serves
  · split at serves <;> cases serves
  · split at serves
    · rename_i served
      obtain ⟨own, claimed, agrees⟩ := (Option.any_eq_true _ _).mp served
      rw [Bool.and_eq_true, beq_iff_eq, Bool.not_eq_true'] at agrees
      rw [claimed, eq_of_not_conflicts (identified own claimed) known agrees.1 agrees.2]
    · cases serves
  · cases serves

variable {own : RecoveryClaim}

theorem epoch_of_claim (claimed : snapshot.claim = some own)
    : own = ⟨snapshot.epoch, snapshot.recoveryId⟩ ∧ snapshot.state ≠ .unclaimed := by
  have state : snapshot.state ≠ .unclaimed := by
    intro unclaimed
    rw [claim, unclaimed] at claimed
    cases claimed
  rw [claim_of_claimed state] at claimed
  exact ⟨(Option.some.inj claimed).symm, state⟩

/-- A claimed node refuses a sender that does not agree with it, and says so with what it learnt
from the message. -/
theorem admission_of_disagreeing (claimed : snapshot.claim = some own)
    (disagree : own.epoch = sender.epoch → own.conflictsWith sender = true)
    : RecoveryFence.admission snapshot sender
      = (.refuse ((snapshot.fenceIfNewer sender.epoch).splitIfConflicting sender).refusalClaim,
        (snapshot.fenceIfNewer sender.epoch).splitIfConflicting sender) := by
  rw [admission]
  split
  · next unclaimed => exact absurd unclaimed (epoch_of_claim claimed).2
  · rw [if_neg]
    rw [claimed, Option.any_some, Bool.and_eq_true, beq_iff_eq, Bool.not_eq_true']
    rintro ⟨sameEpoch, agree⟩
    rw [disagree sameEpoch] at agree
    cases agree
  · rfl

theorem fenced_of_newer (claimed : snapshot.claim = some own) {peerEpoch : Nat}
    (newer : snapshot.newestKnownEpoch < peerEpoch)
    : (snapshot.fenceIfNewer peerEpoch).isFenced = true := by
  rw [fenceIfNewer, if_neg (Nat.not_le_of_lt newer), if_neg (epoch_of_claim claimed).2]
  rfl

/-- An unfenced claimed node runs: it probes or serves. -/
theorem running_of_unfenced (claimed : snapshot.state ≠ .unclaimed)
    (unfenced : snapshot.isFenced = false)
    : snapshot.state = .serving ∨ snapshot.state = .probing := by
  cases state : snapshot.state with
  | unclaimed => exact absurd state claimed
  | probing => exact .inr rfl
  | serving => exact .inl rfl
  | fenced | split => simp [isFenced, fencedBy, state] at unfenced

/-- A running node that meets its epoch from another recovery fences itself as a split. -/
theorem fenced_of_conflict (claimed : snapshot.claim = some own)
    (unfenced : snapshot.isFenced = false) (conflicts : own.conflictsWith sender = true)
    : (snapshot.splitIfConflicting sender).isFenced = true := by
  obtain ⟨_, state⟩ := epoch_of_claim claimed
  rw [splitIfConflicting, if_pos (running_of_unfenced state unfenced), claimed]
  cases known : sender.id with
  | none =>
    rw [conflictsWith, known] at conflicts
    cases own.id <;> simp at conflicts
  | some otherId =>
    simp only [conflicts, if_true]
    rfl

/-- Two nodes with different claims cannot exchange a message and its reply without one of them
being fenced. The sender is taken as it is when the reply arrives: its claim is still the one it
sent. -/
theorem exchange_fences {receiver : FenceSnapshot} {sent : RecoveryClaim}
    (sends : snapshot.claim = some sent) (holds : receiver.claim = some own)
    (known : sent.Identified) (known' : own.Identified) (different : sent ≠ own)
    : ∃ newest,
        (RecoveryFence.admission receiver sent).1 = .refuse newest
        ∧ ((RecoveryFence.admission receiver sent).2.isFenced = true
          ∨ (RecoveryFence.observePeer snapshot newest).isFenced = true) := by
  have disagree (sameEpoch : own.epoch = sent.epoch) : own.conflictsWith sent = true := by
    by_contra agree
    exact different (eq_of_not_conflicts known' known sameEpoch (by simpa using agree)).symm
  have refused := admission_of_disagreeing holds disagree
  rw [refused]
  refine ⟨_, rfl, ?_⟩
  by_cases fenced : receiver.isFenced = true
  · exact .inl ((splitIfConflicting_extends _ _).fenced ((fenceIfNewer_extends _ _).fenced fenced))
  rw [Bool.not_eq_true] at fenced
  have newest := newestKnownEpoch_unfenced fenced
  obtain ⟨rfl, _⟩ := epoch_of_claim holds
  rcases Nat.lt_trichotomy receiver.epoch sent.epoch with newer | same | older
  · exact .inl ((splitIfConflicting_extends _ _).fenced (fenced_of_newer holds (newest ▸ newer)))
  · left
    rw [fenceIfNewer, if_pos (newest ▸ same.ge)]
    exact fenced_of_conflict holds fenced (disagree same)
  · -- The receiver learns nothing, and its refusal names its own newer epoch.
    right
    have unmoved : receiver.fenceIfNewer sent.epoch = receiver := by
      rw [fenceIfNewer, if_pos (newest ▸ older.le)]
    have agrees : (⟨receiver.epoch, receiver.recoveryId⟩ : RecoveryClaim).conflictsWith sent
        = false := by
      rw [conflictsWith, beq_false_of_ne older.ne', Bool.false_and]
    have unsplit : receiver.splitIfConflicting sent = receiver := by
      rw [splitIfConflicting, holds]
      split
      · split
        · rename_i own otherId found _
          cases found
          rw [agrees, if_neg (by decide)]
        · rfl
      · rfl
    rw [unmoved, unsplit]
    have said : receiver.refusalClaim.epoch = receiver.epoch := newest
    by_cases already : snapshot.isFenced = true
    · exact (observePeer_extends _ _).fenced already
    rw [Bool.not_eq_true] at already
    have behind := newestKnownEpoch_unfenced already
    obtain ⟨rfl, _⟩ := epoch_of_claim sends
    rw [observePeer, said, if_pos (behind ▸ older)]
    exact fenced_of_newer sends (behind ▸ older)

end FenceSnapshot

-- Runs of one node

namespace RecoveryFence

open FenceSnapshot

variable {fence : RecoveryFence} {event : Event}

/-- Messages and Raft snapshots carry claims with a recovery id exactly at epochs above 0. -/
def Event.Identified : Event → Prop
  | .receive sender => sender.Identified
  | .restart snapshotClaim _ _ => snapshotClaim.Identified
  | _ => True

def Event.isRestart : Event → Bool
  | .restart _ _ _ => true
  | _ => false

/-- A node that never wrote a record. -/
structure Fresh (fence : RecoveryFence) : Prop where
  unwritten : fence.file = none
  identified : fence.snapshot.Identified

/-- The record is behind what the node knows, and both hold identified claims. -/
structure Consistent (fence : RecoveryFence) : Prop where
  identified : fence.snapshot.Identified
  behind : ∀ record, fence.file = some record → (record.snapshot .probing).Extends fence.snapshot

theorem Fresh.consistent (fresh : fence.Fresh) : fence.Consistent :=
  ⟨fresh.identified, fun record found => by rw [fresh.unwritten] at found; cases found⟩

/-- Without a restart the fence only moves on. -/
theorem step_extends (fence : RecoveryFence) (lives : event.isRestart = false)
    : fence.snapshot.Extends (fence.step event).snapshot := by
  cases event with
  | receive sender => exact admission_extends fence.snapshot sender
  | observePeer peer => exact observePeer_extends fence.snapshot peer
  | finishProbe => exact finishProbe_extends fence.snapshot
  | persist => exact .refl fence.snapshot
  | restart snapshotClaim holdsCouncilState bootstrapping => cases lives

theorem identified_of_extends {before after : FenceSnapshot} (identified : before.Identified)
    (extends_ : before.Extends after)
    (adopted : before.claim = none → after.Identified)
    : after.Identified := by
  cases held : before.claim with
  | none => exact adopted held
  | some claim =>
    intro other claimed
    rw [extends_.claim claim held] at claimed
    cases claimed
    exact identified claim held

section

variable {snapshot : FenceSnapshot}

theorem unclaimed_of_claim (unclaimed : snapshot.claim = none)
    : snapshot.state = .unclaimed := by
  by_contra claimed
  rw [claim_of_claimed claimed] at unclaimed
  cases unclaimed

/-- A node that claims nothing comes to claim only what a sender does. -/
theorem admission_identified {sender : RecoveryClaim}
    (identified : snapshot.Identified) (known : sender.Identified)
    : (admission snapshot sender).2.Identified := by
  refine identified_of_extends identified (admission_extends snapshot sender) fun none => ?_
  have unclaimed := unclaimed_of_claim none
  intro held claimed
  rw [admission, unclaimed] at claimed
  dsimp only at claimed
  split at claimed
  · rw [none] at claimed
    cases claimed
  · cases claimed
    exact known

theorem observePeer_unclaimed (none : snapshot.claim = none)
    (peer : RecoveryClaim)
    : (observePeer snapshot peer).claim = .none := by
  have unclaimed := unclaimed_of_claim none
  rw [observePeer]
  split
  · rw [fenceIfNewer]
    split
    · exact none
    · rw [claim, unclaimed]
  · rw [splitIfConflicting, if_neg (by simp [unclaimed]), none]

theorem finishProbe_unclaimed (none : snapshot.claim = none)
    : (finishProbe snapshot).claim = .none := by
  rw [finishProbe, if_neg (by simp [unclaimed_of_claim none]), none]

end

variable {record : FenceRecord} {events : List Event}

theorem Consistent.step (consistent : fence.Consistent) (known : event.Identified)
    : (fence.step event).Consistent := by
  have moves {next : FenceSnapshot} (extends_ : fence.snapshot.Extends next)
      (identified : next.Identified)
      : Consistent ⟨next, fence.file⟩ :=
    ⟨identified, fun record found => (consistent.behind record found).trans extends_⟩
  cases event with
  | receive sender =>
    exact moves (admission_extends fence.snapshot sender)
      (admission_identified consistent.identified known)
  | observePeer peer =>
    have extends_ := observePeer_extends fence.snapshot peer
    refine moves extends_ (identified_of_extends consistent.identified extends_ fun none => ?_)
    intro held claimed
    rw [observePeer_unclaimed none] at claimed
    cases claimed
  | finishProbe =>
    have extends_ := finishProbe_extends fence.snapshot
    refine moves extends_ (identified_of_extends consistent.identified extends_ fun none => ?_)
    intro held claimed
    rw [finishProbe_unclaimed none] at claimed
    cases claimed
  | persist =>
    refine ⟨consistent.identified, fun record found => ?_⟩
    rcases Option.or_eq_some_iff.mp found with written | ⟨_, kept⟩
    · exact (record_round_trip written).1
    · exact consistent.behind record kept
  | restart snapshotClaim holdsCouncilState bootstrapping =>
    obtain ⟨_, file⟩ := fence
    cases file with
    | none =>
      refine ⟨fun held claimed => ?_, fun record found => by cases found⟩
      obtain ⟨rfl, _⟩ := epoch_of_claim claimed
      exact known
    | some record =>
      have behind := consistent.behind record rfl
      refine ⟨?_, fun other found => ?_⟩
      · have claimed : (record.snapshot .probing).state ≠ .unclaimed := by
          rw [FenceRecord.snapshot]
          cases record.splitWith <;> cases record.fencedBy <;> simp
        intro held isClaim
        obtain ⟨rfl, _⟩ := epoch_of_claim isClaim
        exact consistent.identified _ (behind.claim _ (claim_of_claimed claimed))
      · cases found
        exact snapshot_extends record holdsCouncilState

theorem run_consistent (consistent : fence.Consistent) (known : ∀ event ∈ events, event.Identified)
    : (Runs.run step fence events).Consistent := by
  induction events generalizing fence with
  | nil => exact consistent
  | cons event rest ih =>
    exact ih (consistent.step (known event List.mem_cons_self))
      (List.forall_mem_cons.mp known).2

/-- Between restarts a run only moves the fence on. -/
theorem run_extends (lives : ∀ event ∈ events, event.isRestart = false)
    : fence.snapshot.Extends (Runs.run step fence events).snapshot := by
  induction events generalizing fence with
  | nil => exact .refl _
  | cons event rest ih =>
    exact (step_extends fence (lives event List.mem_cons_self)).trans
      (ih (List.forall_mem_cons.mp lives).2)

/-- A record that was written is only ever replaced by a later one. -/
theorem file_step_extends (consistent : fence.Consistent) (found : fence.file = some record)
    (event : Event)
    : ∃ next,
        (fence.step event).file = some next
        ∧ (record.snapshot .probing).Extends (next.snapshot .probing) := by
  cases event with
  | persist =>
    cases written : fence.snapshot.record with
    | none => exact ⟨record, by simp [step, persist, written, found], .refl _⟩
    | some next =>
      exact ⟨next, by simp [step, persist, written],
        (consistent.behind record found).trans (record_round_trip written).2⟩
  | _ => exact ⟨record, found, .refl _⟩

/-- Whatever was on disk at some time holds of the node ever after. -/
theorem run_keeps_record (consistent : fence.Consistent)
    (known : ∀ event ∈ events, event.Identified) (found : fence.file = some record)
    : (record.snapshot .probing).Extends (Runs.run step fence events).snapshot := by
  induction events generalizing fence record with
  | nil => exact consistent.behind record found
  | cons event rest ih =>
    obtain ⟨_, kept, later⟩ := file_step_extends consistent found event
    exact later.trans (ih (consistent.step (known event List.mem_cons_self))
      (List.forall_mem_cons.mp known).2 kept)

/-- What the recovery fence guarantees, for every node and every order of messages, gossip, probes,
writes of the record and restarts. -/
theorem recovery_fence_holds (start : RecoveryFence) (first second : List Event)
    (fresh : start.Fresh) (known : ∀ event ∈ first ++ second, event.Identified)
    : let before := Runs.run step start first
      let after := Runs.run step before second
      ((∀ event ∈ second, event.isRestart = false) → before.snapshot.Extends after.snapshot)
      ∧ (∀ record, before.snapshot.record = some record → before.file = some record
        → before.snapshot.Extends after.snapshot)
      ∧ (∀ record, before.file = some record
        → (record.snapshot .probing).Extends after.snapshot)
      ∧ (after.snapshot.isFenced = true
        → after.snapshot.outboundClaim = none
          ∧ ∀ sender, ∃ newest, (admission after.snapshot sender).1 = .refuse newest)
      ∧ (∀ sender, sender.Identified → (admission after.snapshot sender).1 = .serve
        → after.snapshot.claim = some sender)
      ∧ (∀ peerStart peerEvents, peerStart.Fresh → (∀ event ∈ peerEvents, event.Identified)
        → ∀ sent own, (Runs.run step peerStart peerEvents).snapshot.claim = some sent
          → after.snapshot.claim = some own → sent ≠ own
          → ∃ newest, (admission after.snapshot sent).1 = .refuse newest
            ∧ ((admission after.snapshot sent).2.isFenced = true
              ∨ (observePeer (Runs.run step peerStart peerEvents).snapshot newest).isFenced
                = true)) := by
  intro before after
  have consistent : before.Consistent :=
    run_consistent fresh.consistent fun event listed => known event (List.mem_append_left _ listed)
  have known' : ∀ event ∈ second, event.Identified :=
    fun event listed => known event (List.mem_append_right _ listed)
  have consistent' : after.Consistent := run_consistent consistent known'
  refine ⟨run_extends, ?_, ?_, ?_, ?_, ?_⟩
  · intro record written found
    exact (record_round_trip written).2.trans (run_keeps_record consistent known' found)
  · intro record found
    exact run_keeps_record consistent known' found
  · intro fenced
    exact ⟨(refuses_of_fenced fenced ⟨0, none⟩).1,
      fun sender => (refuses_of_fenced fenced sender).2⟩
  · intro sender identified serves
    exact claim_of_serve consistent'.identified identified serves
  · intro peerStart peerEvents peerFresh peerKnown sent own sends holds different
    have peer := run_consistent peerFresh.consistent peerKnown
    exact exchange_fences sends holds (peer.identified sent sends)
      (consistent'.identified own holds) different

def oldMember : RecoveryFence :=
  load none ⟨0, none⟩ true false

theorem oldMember_fresh : oldMember.Fresh :=
  ⟨rfl, fun held claimed => by
    obtain ⟨rfl, _⟩ := epoch_of_claim claimed
    simp [RecoveryClaim.Identified, oldMember, load]⟩

/-- The member serves with its claim on disk and then learns of a newer epoch. -/
def newsOfRecovery : List Event :=
  [.finishProbe, .persist, .observePeer ⟨1, some 7⟩]

/-- A restart before the fence reaches the disk forgets it. -/
theorem restart_forgets_fence
    : ¬ ∀ (start : RecoveryFence) (events : List Event) (last : Event),
        start.Fresh
        → (∀ event ∈ events ++ [last], event.Identified)
        → (Runs.run step start events).snapshot.isFenced = true
        → ((Runs.run step start events).step last).snapshot.isFenced = true := by
  intro stays
  have fenced := stays oldMember newsOfRecovery (.restart ⟨0, none⟩ true false) oldMember_fresh
    (by simp [newsOfRecovery, Event.Identified, RecoveryClaim.Identified]) (by decide)
  revert fenced
  decide

/-- With the fence on disk the restarted member stays fenced. -/
theorem persisted_fence_stays
    : (Runs.run step oldMember (newsOfRecovery ++ [.persist, .restart ⟨0, none⟩ true false,
        .finishProbe])).snapshot.isFenced = true := by
  have kept := (recovery_fence_holds oldMember (newsOfRecovery ++ [.persist])
    [.restart ⟨0, none⟩ true false, .finishProbe] oldMember_fresh
    (by simp [newsOfRecovery, Event.Identified, RecoveryClaim.Identified])).2.1
    ⟨0, none, some 1, none⟩ (by decide) (by decide)
  exact kept.fenced (by decide)

end RecoveryFence

end Reliaburger
