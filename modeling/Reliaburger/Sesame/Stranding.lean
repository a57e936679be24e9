import Reliaburger.Library.Runs
import Reliaburger.Sesame.Security

/-! Rotations against the leaves that CAs sign: runs of the rotation steps with a clock and with
every leaf signed on the way, and when finishing a rotation leaves no live leaf untrusted.
-/

namespace Reliaburger

open Checks BTreeMap SecurityState

-- The CAs of a role

def casOf (role : CaRole) (authorities : List CertificateAuthority) : List CertificateAuthority :=
  authorities.filter (fun ca => ca.role == role)

/-- A role has no CA, its active one, or the one it rotates away from and the next. -/
inductive RoleCas : List CertificateAuthority → Prop
  | none : RoleCas []
  | settled (active : CertificateAuthority) (signs : active.state = .active) : RoleCas [active]
  | rotating (old new : CertificateAuthority) (expiry : SystemTime)
    (retires : old.state = .retiring expiry) (signs : new.state = .active)
    (next : new.generation = old.generation + 1)
    : RoleCas [old, new]

namespace SecurityState

variable {signed : String → String → Except String Unit} {security next : SecurityState}
  {role other : CaRole} {new ca : CertificateAuthority}

theorem activeCa_eq_maxBy
    : security.activeCa role = Extremes.maxBy (compareOn CertificateAuthority.generation)
        ((casOf role security.certificateAuthorities).filter (fun ca => ca.state == .active)) := by
  rw [activeCa, casOf, List.filter_filter]
  simp only [Bool.and_comm]

theorem retiringCa_eq_find
    : security.retiringCa role
      = (casOf role security.certificateAuthorities).find? (fun ca => ca.state.isRetiring) := by
  rw [retiringCa, casOf, List.find?_filter]
  congr 1
  funext ca
  simp [beq_eq_decide]

variable {expiry : SystemTime} {authorities : List CertificateAuthority}

theorem cas_of_rotating {old : CertificateAuthority} (retires : old.state = .retiring expiry)
    (signs : new.state = .active) (cas : casOf role security.certificateAuthorities = [old, new])
    : security.activeCa role = some new ∧ security.retiringCa role = some old := by
  rw [activeCa_eq_maxBy, retiringCa_eq_find, cas]
  simp [signs, retires, CaState.isRetiring]

-- The steps of a rotation

/-- A begin is a retry, or turns the active CA into the retiring one. -/
theorem begin_cases {outcome : BeginOutcome}
    (begun : security.begin signed role new = .ok (outcome, next))
    : next = security
      ∨ ∃ active, (∀ ca ∈ casOf role security.certificateAuthorities,
            ca.generation ≠ new.generation)
          ∧ new.role = role
          ∧ security.retiringCa role = none
          ∧ security.activeCa role = some active
          ∧ new.generation = active.generation + 1
          ∧ next.certificateAuthorities = replaceCa security.certificateAuthorities role
              active.generation (new.notBefore + clockSkewBackdate + longestLeafLifetime role) new
          ∧ next.nodeLeaves = security.nodeLeaves := by
  obtain ⟨_, _, begun⟩ := bind_eq_ok.mp begun
  obtain ⟨_, sameRole, begun⟩ := bind_eq_ok.mp begun
  rw [refuseIf_eq_ok, not_not] at sameRole
  split at begun
  · exact .inl (Prod.mk.inj (Except.ok.inj begun)).2.symm
  rename_i unused
  obtain ⟨_, idle, begun⟩ := bind_eq_ok.mp begun
  obtain ⟨active, found, begun⟩ := bind_eq_ok.mp begun
  obtain ⟨_, follows, begun⟩ := bind_eq_ok.mp begun
  obtain ⟨_, _, begun⟩ := bind_eq_ok.mp begun
  obtain ⟨_, _, begun⟩ := bind_eq_ok.mp begun
  obtain ⟨_, _, begun⟩ := bind_eq_ok.mp begun
  cases begun
  rw [refuseIf_eq_ok, Bool.not_eq_true, Option.isSome_eq_false_iff, Option.isNone_iff_eq_none]
    at idle
  rw [refuseIf_eq_ok, not_not] at follows
  refine .inr ⟨active, fun ca listed same => unused ?_, sameRole, idle, ?_, follows, rfl, rfl⟩
  · obtain ⟨listed, ofRole⟩ := List.mem_filter.mp listed
    exact List.any_eq_true.mpr ⟨ca, listed, by simp [same, beq_iff_eq.mp ofRole]⟩
  unfold findActiveCa at found
  split at found
  · next held => rw [held, Except.ok.inj found]
  · cases found

/-- What an accepted finalise checked, and what it drops. -/
theorem finalize_cases {now : SystemTime} (finalised : security.finalize role now = .ok next)
    : ∃ retiring expiry,
        security.retiringCa role = some retiring
        ∧ retiring.state = .retiring expiry
        ∧ (role = .node → security.nodesNotTrustingActiveCa = [])
        ∧ (expiry ≤ now ∨ (role = .node ∧ security.nodesOnRetiringCa retiring.generation = []))
        ∧ next = { security with
            certificateAuthorities := security.certificateAuthorities.filter (fun ca =>
              ca.role != role || ca.state == .active) } := by
  unfold finalize at finalised
  split at finalised
  · cases finalised
  rename_i retiring found
  split at finalised
  · cases finalised
  rename_i expiry retires
  obtain ⟨_, checked, finalised⟩ := bind_eq_ok.mp finalised
  obtain ⟨_, trusted, checked⟩ := bind_eq_ok.mp checked
  rw [refuseIf_eq_ok, not_and, not_not] at trusted
  refine ⟨retiring, expiry, found, retires, trusted, ?_, (Except.ok.inj finalised).symm⟩
  split at checked
  · obtain ⟨_, ofNode, checked⟩ := bind_eq_ok.mp checked
    rw [refuseIf_eq_ok, not_not] at ofNode checked
    exact .inr ⟨ofNode, checked⟩
  · next late => exact .inl (not_lt.mp late)

theorem casOf_replaceCa_ne {generation : Nat} (sameRole : new.role = role) (apart : other ≠ role)
    : casOf other (replaceCa authorities role generation expiry new) = casOf other authorities := by
  unfold casOf replaceCa
  rw [List.filter_append, List.filter_singleton,
    beq_false_of_ne (show new.role ≠ other from sameRole ▸ apart.symm), cond_false, List.append_nil]
  induction authorities with
  | nil => rfl
  | cons ca rest ih =>
    rw [List.map_cons, List.filter_cons, List.filter_cons, ih]
    by_cases ofRole : ca.role = role
    · have different : ca.role ≠ other := ofRole ▸ apart.symm
      split <;> simp [different]
    · simp [ofRole]

theorem casOf_replaceCa {generation : Nat} (sameRole : new.role = role)
    : casOf role (replaceCa authorities role generation expiry new)
      = (casOf role authorities).map (fun ca =>
          if ca.generation = generation then { ca with state := .retiring expiry } else ca)
        ++ [{ new with state := .active }] := by
  unfold casOf replaceCa
  rw [List.filter_append, List.filter_singleton, beq_iff_eq.mpr sameRole, cond_true]
  congr 1
  induction authorities with
  | nil => rfl
  | cons ca rest ih =>
    rw [List.map_cons, List.filter_cons, List.filter_cons, ih]
    by_cases ofRole : ca.role = role
    · by_cases replaced : ca.generation = generation <;> simp [ofRole, replaced]
    · simp [ofRole]

/-- Dropping the retiring CA of one role. -/
theorem casOf_finalized
    : casOf other (authorities.filter (fun ca => ca.role != role || ca.state == .active))
      = (casOf other authorities).filter (fun ca => other != role || ca.state == .active) := by
  unfold casOf
  rw [List.filter_filter, List.filter_filter]
  refine List.filter_congr fun ca _ => ?_
  by_cases ofOther : ca.role = other
  · rw [ofOther, Bool.and_comm]
  · rw [beq_false_of_ne ofOther, Bool.false_and, Bool.and_false]

end SecurityState

-- Runs

/-- A leaf certificate, by the role and generation of the CA that signed it. -/
structure Leaf where
  role : CaRole
  generation : Nat
  node : String
  signedAt : SystemTime
  expiresAt : SystemTime
deriving DecidableEq, Repr

inductive RotationRequest where
  | prepare (role : CaRole) (generation : Nat) (csrDer privateKeyWrapped : String)
  | begin (role : CaRole) (new : CertificateAuthority)
  | acknowledgeTrust (nodeId : String) (generation : Nat)
  | recordNodeLeaf (nodeId : String) (serial : Nat)
  | finalize (role : CaRole)

inductive RotationEvent where
  | request (request : RotationRequest)
  /-- The active CA of the role signs a leaf. -/
  | sign (role : CaRole) (node : String) (lifetime : Int)

/-- The security state with the clock and every leaf that was signed. -/
structure RotationRun where
  security : SecurityState
  now : SystemTime
  leaves : List Leaf := []

namespace SecurityState

/-- A refused step changes nothing. -/
def orKeep (security : SecurityState) : Except CaRotationError SecurityState → SecurityState
  | .ok next => next
  | .error _ => security

def rotationStep (signed : String → String → Except String Unit) (security : SecurityState)
    (now : SystemTime)
    : RotationRequest → SecurityState
  | .prepare role generation csrDer privateKeyWrapped =>
    security.orKeep ((security.prepare role generation csrDer privateKeyWrapped).map Prod.snd)
  | .begin role new => security.orKeep ((security.begin signed role new).map Prod.snd)
  | .acknowledgeTrust nodeId generation =>
    security.orKeep (security.acknowledgeTrust nodeId generation)
  | .recordNodeLeaf nodeId serial => security.recordNodeLeaf nodeId serial
  | .finalize role => security.orKeep (security.finalize role now)

end SecurityState

namespace RotationRun

def step (signed : String → String → Except String Unit) (run : RotationRun)
    (event : SystemTime × RotationEvent)
    : RotationRun :=
  match event.2 with
  | .request request =>
    { run with now := event.1, security := run.security.rotationStep signed event.1 request }
  | .sign role node lifetime =>
    match run.security.activeCa role with
    | none => { run with now := event.1 }
    | some ca =>
      { run with
        now := event.1
        leaves := ⟨role, ca.generation, node, event.1, event.1 + lifetime⟩ :: run.leaves }

/-- The clock does not go back, a new CA was made before its rotation begins and no leaf lives
longer than its role's do. -/
def Orderly (run : RotationRun) (event : SystemTime × RotationEvent) : Prop :=
  run.now ≤ event.1
  ∧ match event.2 with
    | .request (.begin _ new) => new.notBefore + clockSkewBackdate ≤ event.1
    | .sign role _ lifetime => lifetime ≤ longestLeafLifetime role
    | _ => True

/-- A rotation begins with a CA that was made after the active one signed its last leaf; a node's
leaf is signed once it is on record. -/
def Covered (run : RotationRun) (event : SystemTime × RotationEvent) : Prop :=
  match event.2 with
  | .request (.begin role new) =>
    (∃ ca ∈ casOf role run.security.certificateAuthorities, ca.generation = new.generation)
    ∨ ∀ leaf ∈ run.leaves,
        leaf.role = role
        → (∃ active, run.security.activeCa role = some active
            ∧ leaf.generation = active.generation)
        → leaf.signedAt ≤ new.notBefore + clockSkewBackdate
  | .sign .node node _ => node ∈ run.security.nodeLeaves
  | _ => True

/-- Each role has at most one CA, which is active. -/
def Settled (security : SecurityState) : Prop :=
  ∀ role, (casOf role security.certificateAuthorities).length ≤ 1
    ∧ ∀ ca ∈ casOf role security.certificateAuthorities, ca.state = .active

/-- No role has two active CAs, or two retiring ones. -/
def AtMostOne (security : SecurityState) : Prop :=
  ∀ role,
    ((casOf role security.certificateAuthorities).filter (fun ca => ca.state == .active)).length ≤ 1
    ∧ ((casOf role security.certificateAuthorities).filter
        (fun ca => ca.state.isRetiring)).length ≤ 1

/-- A node's leaf does not matter any more: the node is decommissioned, or has a leaf of the active
CA on record. -/
def Superseded (security : SecurityState) (leaf : Leaf) : Prop :=
  security.isRetired leaf.node = true
  ∨ ∃ record, security.nodeLeaves[leaf.node]? = some record
      ∧ security.activeNodeGeneration ≤ record.caGeneration

/-- What finishing a rotation at a time must not do: drop a CA of a live leaf, or of the Node role
before every node trusts the active one. -/
structure DropsSafely (run : RotationRun) (role : CaRole) (now : SystemTime)
    (next : SecurityState)
    : Prop where
  leaves : ∀ ca ∈ run.security.certificateAuthorities, ca ∉ next.certificateAuthorities
    → ∀ leaf ∈ run.leaves, leaf.role = ca.role → leaf.generation = ca.generation
    → leaf.expiresAt ≤ now ∨ (role = .node ∧ Superseded run.security leaf)
  trusted : role = .node → ∀ nodeId record, run.security.nodeLeaves[nodeId]? = some record
    → run.security.isRetired nodeId = false
    → run.security.activeNodeGeneration ≤ record.trustGeneration

-- The invariant

variable {signed : String → String → Except String Unit} {run : RotationRun}
  {next : SecurityState} {role : CaRole}

structure Sound (run : RotationRun) : Prop where
  cas : ∀ role, RoleCas (casOf role run.security.certificateAuthorities)
  lifetimes : ∀ leaf ∈ run.leaves,
    leaf.expiresAt ≤ leaf.signedAt + longestLeafLifetime leaf.role
  /-- A retiring CA is kept at least as long as its leaves live. -/
  kept : ∀ leaf ∈ run.leaves, ∀ retiring expiry,
    run.security.retiringCa leaf.role = some retiring
    → retiring.state = .retiring expiry
    → leaf.generation = retiring.generation
    → leaf.expiresAt ≤ expiry
  recorded : ∀ leaf ∈ run.leaves, leaf.role = .node → leaf.node ∈ run.security.nodeLeaves

section

variable (sound : Sound run)
include sound

/-- While a role rotates, its active CA is the next of the retiring one. -/
theorem Sound.active_of_retiring {retiring : CertificateAuthority}
    (found : run.security.retiringCa role = some retiring)
    : ∃ active, run.security.activeCa role = some active
        ∧ active.generation = retiring.generation + 1
        ∧ ∀ ca ∈ casOf role run.security.certificateAuthorities,
            ca = retiring ∨ ca.state = .active := by
  have cas := sound.cas role
  generalize shape : casOf role run.security.certificateAuthorities = authorities at cas
  cases cas with
  | none => simp [retiringCa_eq_find, shape] at found
  | settled active signs =>
    simp [retiringCa_eq_find, shape, signs, CaState.isRetiring] at found
  | rotating old new expiry retires signs next =>
    obtain ⟨active, held⟩ := cas_of_rotating retires signs shape
    rw [held] at found
    cases found
    exact ⟨new, active, next, by simp [signs]⟩

/-- Where the CAs stay and no record of a node is lost, a run stays sound. -/
theorem Sound.frame (now : SystemTime)
    (authorities : next.certificateAuthorities = run.security.certificateAuthorities)
    (records : ∀ nodeId ∈ run.security.nodeLeaves, nodeId ∈ next.nodeLeaves)
    : Sound { run with now, security := next } := by
  refine ⟨?_, sound.lifetimes, ?_,
    fun leaf listed ofNode => records _ (sound.recorded leaf listed ofNode)⟩
  · show ∀ role, RoleCas (casOf role next.certificateAuthorities)
    rw [authorities]
    exact sound.cas
  · show ∀ leaf ∈ run.leaves, ∀ retiring expiry, next.retiringCa leaf.role = some retiring → _
    simp only [retiringCa, authorities]
    exact sound.kept

theorem sound_begin {new : CertificateAuthority} {outcome : BeginOutcome}
    (now : SystemTime)
    (covered : Covered run (now, .request (.begin role new)))
    (begun : run.security.begin signed role new = .ok (outcome, next))
    : Sound { run with now, security := next } := by
  rcases begin_cases begun with
    rfl | ⟨active, unused, sameRole, idle, held, follows, authorities, records⟩
  · exact sound.frame now rfl fun _ present => present
  -- The role is settled: its only CA is the active one.
  have before : casOf role run.security.certificateAuthorities = [active] := by
    have cas := sound.cas role
    generalize shape : casOf role run.security.certificateAuthorities = authorities at cas
    cases cas with
    | none =>
      rw [activeCa_eq_maxBy, shape] at held
      cases held
    | settled ca signs =>
      rw [activeCa_eq_maxBy, shape, List.filter_cons_of_pos (by simp [signs])] at held
      cases held
      rfl
    | rotating old new expiry retires signs next =>
      rw [(cas_of_rotating retires signs shape).2] at idle
      cases idle
  let expiry := new.notBefore + clockSkewBackdate + longestLeafLifetime role
  have after : casOf role next.certificateAuthorities
      = [{ active with state := .retiring expiry }, { new with state := .active }] := by
    rw [authorities, casOf_replaceCa sameRole, before]
    simp [expiry]
  have others (other : CaRole) (apart : other ≠ role)
      : casOf other next.certificateAuthorities
        = casOf other run.security.certificateAuthorities := by
    rw [authorities, casOf_replaceCa_ne sameRole apart]
  refine ⟨fun other => ?_, sound.lifetimes, fun leaf listed retiring due found retires same => ?_,
    fun leaf listed ofNode => ?_⟩
  · show RoleCas (casOf other next.certificateAuthorities)
    by_cases apart : other = role
    · rw [apart, after]
      exact .rotating _ _ expiry rfl rfl follows
    · rw [others other apart]
      exact sound.cas other
  · replace found : next.retiringCa leaf.role = some retiring := found
    by_cases ofRole : leaf.role = role
    · rw [ofRole, (cas_of_rotating rfl rfl after).2] at found
      cases found
      obtain rfl := CaState.retiring.inj retires
      have signedBefore : leaf.signedAt ≤ new.notBefore + clockSkewBackdate := by
        rcases covered with ⟨ca, taken, again⟩ | covered
        · exact absurd again (unused ca taken)
        · exact covered leaf listed ofRole ⟨active, held, same⟩
      have lives := sound.lifetimes leaf listed
      rw [ofRole] at lives
      exact lives.trans (Int.add_le_add_right signedBefore _)
    · rw [retiringCa_eq_find, others leaf.role ofRole, ← retiringCa_eq_find] at found
      exact sound.kept leaf listed retiring due found retires same
  · show leaf.node ∈ next.nodeLeaves
    rw [records]
    exact sound.recorded leaf listed ofNode

theorem sound_finalize {time : SystemTime} (now : SystemTime)
    (finalised : run.security.finalize role time = .ok next)
    : Sound { run with now, security := next } := by
  obtain ⟨_, expiry, _, retires, _, _, rfl⟩ := finalize_cases finalised
  have after (other : CaRole) : casOf other (run.security.certificateAuthorities.filter (fun ca =>
        ca.role != role || ca.state == .active))
      = (casOf other run.security.certificateAuthorities).filter (fun ca =>
          other != role || ca.state == .active) :=
    casOf_finalized
  refine ⟨fun other => ?_, sound.lifetimes, fun leaf listed old due held => ?_, sound.recorded⟩
  · show RoleCas (casOf other (run.security.certificateAuthorities.filter _))
    rw [after]
    by_cases apart : other = role
    · subst apart
      have cas := sound.cas other
      generalize casOf other run.security.certificateAuthorities = authorities at cas
      cases cas with
      | none => exact .none
      | settled active signs => simpa [signs] using RoleCas.settled active signs
      | rotating old new expiry retires signs next =>
        simpa [signs, retires] using RoleCas.settled new signs
    · have kept : (other != role) = true := bne_iff_ne.mpr apart
      simpa [kept] using sound.cas other
  · rw [retiringCa_eq_find, after] at held
    have kept := List.mem_of_find?_eq_some held
    have isRetiring := List.find?_some held
    obtain ⟨_, survives⟩ := List.mem_filter.mp kept
    by_cases ofRole : leaf.role = role
    · intro retires
      simp [ofRole, retires] at survives
    have same : run.security.retiringCa leaf.role = some old := by
      rw [retiringCa_eq_find, ← held]
      simp [ofRole]
    exact sound.kept leaf listed old due same

theorem sound_sign {ca : CertificateAuthority} {node : String} {lifetime : Int}
    (now : SystemTime) (orderly : lifetime ≤ longestLeafLifetime role)
    (covered : Covered run (now, .sign role node lifetime))
    (active : run.security.activeCa role = some ca)
    : Sound { run with
        now
        leaves := ⟨role, ca.generation, node, now, now + lifetime⟩ :: run.leaves } := by
  refine ⟨sound.cas, List.forall_mem_cons.mpr ⟨?_, sound.lifetimes⟩,
    List.forall_mem_cons.mpr ⟨fun retiring expiry found _ same => ?_, sound.kept⟩,
    List.forall_mem_cons.mpr ⟨fun ofNode => ?_, sound.recorded⟩⟩
  · exact Int.add_le_add_left orderly now
  · obtain ⟨_, held, _, _⟩ := sound.active_of_retiring found
    rw [active] at held
    cases held
    replace same : ca.generation = retiring.generation := same
    omega
  · obtain rfl : role = .node := ofNode
    exact covered

/-- A refused step keeps a run sound. -/
theorem Sound.orKeep (now : SystemTime)
    {result : Except CaRotationError SecurityState}
    (accepted : ∀ next, result = .ok next → Sound { run with now, security := next })
    : Sound { run with now, security := run.security.orKeep result } := by
  cases result with
  | error refused => exact sound.frame now rfl fun _ present => present
  | ok next => exact accepted next rfl

end

theorem map_snd_eq_ok {Answer : Type} {result : Except CaRotationError (Answer × SecurityState)}
    (mapped : result.map Prod.snd = .ok next)
    : ∃ answer, result = .ok (answer, next) := by
  cases result with
  | error refused => cases mapped
  | ok outcome => exact ⟨outcome.1, by rw [← Except.ok.inj mapped]⟩

theorem sound_step {event : SystemTime × RotationEvent} (orderly : Orderly run event)
    (covered : Covered run event) (sound : Sound run)
    : Sound (run.step signed event) := by
  obtain ⟨now, event⟩ := event
  cases event with
  | sign role node lifetime =>
    unfold step
    dsimp only
    split
    · exact sound.frame now rfl fun _ present => present
    · next ca active => exact sound_sign sound now orderly.2 covered active
  | request request =>
    cases request with
    | prepare role generation csrDer privateKeyWrapped =>
      refine sound.orKeep now fun next mapped => ?_
      obtain ⟨_, prepared⟩ := map_snd_eq_ok mapped
      obtain ⟨_, _, prepared⟩ := bind_eq_ok.mp prepared
      obtain ⟨_, _, prepared⟩ := bind_eq_ok.mp prepared
      obtain ⟨_, _, prepared⟩ := bind_eq_ok.mp prepared
      obtain ⟨_, _, prepared⟩ := bind_eq_ok.mp prepared
      cases prepared
      exact sound.frame now rfl fun _ present => present
    | begin role new =>
      refine sound.orKeep now fun next mapped => ?_
      obtain ⟨_, begun⟩ := map_snd_eq_ok mapped
      exact sound_begin sound now covered begun
    | acknowledgeTrust nodeId generation =>
      refine sound.orKeep now fun next acknowledged => ?_
      obtain ⟨_, _, acknowledged⟩ := bind_eq_ok.mp acknowledged
      split at acknowledged
      · cases acknowledged
      · rw [← Except.ok.inj acknowledged]
        exact sound.frame now rfl fun other present => mem_insert.mpr (.inr present)
    | recordNodeLeaf nodeId serial =>
      exact sound.frame now rfl fun other present => mem_insert.mpr (.inr present)
    | finalize role => exact sound.orKeep now fun next => sound_finalize sound now

-- Finishing a rotation

theorem sound_start {security : SecurityState} (settled : Settled security) (now : SystemTime)
    : Sound { security, now } := by
  refine ⟨fun role => ?_, by simp, by simp, by simp⟩
  obtain ⟨single, signs⟩ := settled role
  show RoleCas (casOf role security.certificateAuthorities)
  match cas : casOf role security.certificateAuthorities with
  | [] => exact .none
  | [active] => exact .settled active (signs active (by simp [cas]))
  | _ :: _ :: _ =>
    rw [cas] at single
    simp at single

theorem Sound.atMostOne (sound : Sound run) : AtMostOne run.security := by
  intro role
  have cas := sound.cas role
  generalize casOf role run.security.certificateAuthorities = authorities at cas ⊢
  cases cas with
  | none => simp
  | settled active signs => simp [signs, CaState.isRetiring]
  | rotating old new expiry retires signs next => simp [signs, retires, CaState.isRetiring]

theorem of_liveNodes_eq_nil {security : SecurityState} {holds : NodeLeafRecord → Bool}
    {nodeId : String} {record : NodeLeafRecord} (none : security.liveNodes holds = [])
    (found : security.nodeLeaves[nodeId]? = some record)
    (live : security.isRetired nodeId = false)
    : holds record = false := by
  rw [liveNodes, List.map_eq_nil_iff, List.filter_eq_nil_iff] at none
  have dropped := none (nodeId, record) (mem_toList.mpr found)
  simpa [live] using dropped

/-- A finalise that is accepted drops nothing a live leaf needs. -/
theorem Sound.dropsSafely (sound : Sound run) {now : SystemTime}
    (finalised : run.security.finalize role now = .ok next)
    : DropsSafely run role now next := by
  obtain ⟨retiring, expiry, found, retires, trusted, allowed, rfl⟩ :=
    finalize_cases finalised
  obtain ⟨active, held, newer, shape⟩ := sound.active_of_retiring found
  constructor
  · intro ca listed dropped leaf signed ofRole ofGeneration
    -- Only the retiring CA of the role is dropped.
    rw [List.mem_filter, not_and, Bool.or_eq_true, not_or] at dropped
    obtain ⟨inRole, stopped⟩ := dropped listed
    rw [bne_iff_ne, ne_eq, not_not] at inRole
    have isRetiring : ca = retiring := by
      refine (shape ca (List.mem_filter.mpr ⟨listed, beq_iff_eq.mpr inRole⟩)).resolve_right ?_
      exact fun signs => stopped (beq_iff_eq.mpr signs)
    subst isRetiring
    subst inRole
    rcases allowed with past | ⟨ofNode, moved⟩
    · rw [← ofRole] at found
      exact .inl ((sound.kept leaf signed ca expiry found retires ofGeneration).trans past)
    refine .inr ⟨ofNode, ?_⟩
    obtain ⟨record, onRecord⟩ := mem_iff.mp (sound.recorded leaf signed (ofRole.trans ofNode))
    cases retired : run.security.isRetired leaf.node with
    | true => exact .inl retired
    | false =>
      refine .inr ⟨record, onRecord, ?_⟩
      have later := of_liveNodes_eq_nil moved onRecord retired
      rw [decide_eq_false_iff_not, Nat.not_le] at later
      rw [ofNode] at held
      rw [activeNodeGeneration, held, Option.map_some, Option.getD_some, newer]
      exact later
  · intro ofNode nodeId record onRecord live
    have later := of_liveNodes_eq_nil (trusted ofNode) onRecord live
    rw [decide_eq_false_iff_not, Nat.not_lt] at later
    exact later

/-- Along every run in which rotations begin with a CA made after the old one's last leaf, no role
has two active or two retiring CAs, and finishing a rotation strands no live leaf. -/
theorem finalize_strands_no_leaf (signed : String → String → Except String Unit)
    (start : SecurityState) (settled : Settled start) (begins : SystemTime)
    (events : List (SystemTime × RotationEvent))
    (orderly : Runs.Meets (step signed) Orderly { security := start, now := begins } events)
    (covered : Runs.Meets (step signed) Covered { security := start, now := begins } events)
    : AtMostOne (Runs.run (step signed) { security := start, now := begins } events).security
      ∧ ∀ role now next,
          (Runs.run (step signed) { security := start, now := begins } events).now ≤ now
          → (Runs.run (step signed) { security := start, now := begins } events).security.finalize
              role now = .ok next
          → DropsSafely (Runs.run (step signed) { security := start, now := begins } events) role
              now next := by
  have sound : Sound (Runs.run (step signed) { security := start, now := begins } events) :=
    (orderly.and covered).invariant Sound
      (fun run event sound both => sound_step both.1 both.2 sound) (sound_start settled begins)
  exact ⟨sound.atMostOne, fun role now next _ finalised => sound.dropsSafely finalised⟩

-- Sample runs

def sampleCa (role : CaRole) (generation : Nat) (notBefore : SystemTime) : CertificateAuthority :=
  ⟨role, "certificate", some "key", 1, notBefore, notBefore + seconds (365 * 24 * 3600), none,
    generation, .active⟩

def sampleSecurity : SecurityState :=
  { certificateAuthorities := [sampleCa .root 0 0, sampleCa .workload 0 0] }

theorem sampleSecurity_settled : Settled sampleSecurity := by
  intro role
  cases role <;> decide

/-- A workload's leaf is signed, then the rotation begins at once with a CA made at a time. -/
def sampleEvents (made : SystemTime) : List (SystemTime × RotationEvent) :=
  [(seconds 7200, .sign .workload "worker" (seconds 3600)),
    (seconds 7200, .request (.begin .workload (sampleCa .workload 1 made)))]

theorem sampleEvents_orderly {made : SystemTime} (early : made + clockSkewBackdate ≤ seconds 7200)
    : Runs.Meets (step (fun _ _ => .ok ())) Orderly { security := sampleSecurity, now := 0 }
        (sampleEvents made) := by
  refine ⟨⟨by decide, ?_⟩, ⟨?_, early⟩, trivial⟩
  · show seconds 3600 ≤ longestLeafLifetime .workload
    decide
  · show seconds 7200 ≤ seconds 7200
    exact Int.le_refl _

def sampleRun (made : SystemTime) : RotationRun :=
  Runs.run (step (fun _ _ => .ok ())) { security := sampleSecurity, now := 0 } (sampleEvents made)

/-- Finishing the sample's rotation succeeds. -/
theorem sampleRun_finalises {made now : SystemTime}
    (passes : ((sampleRun made).security.finalize .workload now).isOk = true)
    : ∃ next, (sampleRun made).security.finalize .workload now = .ok next := by
  cases finalised : (sampleRun made).security.finalize .workload now with
  | error refused =>
    rw [finalised] at passes
    cases passes
  | ok next => exact ⟨next, rfl⟩

/-- A CA that was made hours before its rotation begins makes the old one due at once, while the
leaf it signed last is still live. -/
theorem old_certificate_strands_leaf
    : ¬ ∀ (signed : String → String → Except String Unit) (start : SecurityState)
        (begins : SystemTime) (events : List (SystemTime × RotationEvent)),
        Settled start
        → Runs.Meets (step signed) Orderly { security := start, now := begins } events
        → AtMostOne (Runs.run (step signed) { security := start, now := begins } events).security
          ∧ ∀ role now next,
              (Runs.run (step signed) { security := start, now := begins } events).now ≤ now
              → (Runs.run (step signed) { security := start, now := begins }
                  events).security.finalize role now = .ok next
              → DropsSafely (Runs.run (step signed) { security := start, now := begins } events)
                  role now next := by
  intro safe
  obtain ⟨next, finalised⟩ := @sampleRun_finalises 0 (seconds 7200) (by decide +kernel)
  have drops := (safe (fun _ _ => .ok ()) sampleSecurity 0 (sampleEvents 0)
    sampleSecurity_settled (sampleEvents_orderly (by decide))).2 .workload (seconds 7200) next
    (Int.le_refl _) finalised
  obtain ⟨_, _, _, _, _, _, rfl⟩ := finalize_cases finalised
  rcases drops.leaves { sampleCa .workload 0 0 with state := .retiring (seconds 3900) }
    (by decide +kernel) (by decide +kernel)
    ⟨.workload, 0, "worker", seconds 7200, seconds 7200 + seconds 3600⟩ (by decide +kernel) rfl rfl
    with expired | ⟨ofNode, _⟩
  · exact absurd expired (by decide)
  · cases ofNode

/-- A CA made as its rotation begins lets the old one go once its last leaf has expired. -/
theorem fresh_certificate_strands_nothing
    : ∃ next, (sampleRun (seconds 6900)).security.finalize .workload (seconds 10800) = .ok next
        ∧ DropsSafely (sampleRun (seconds 6900)) .workload (seconds 10800) next := by
  obtain ⟨next, finalised⟩ := @sampleRun_finalises (seconds 6900) (seconds 10800)
    (by decide +kernel)
  refine ⟨next, finalised, (finalize_strands_no_leaf (fun _ _ => .ok ()) sampleSecurity
    sampleSecurity_settled 0 (sampleEvents (seconds 6900)) (sampleEvents_orderly (by decide))
    ⟨trivial, .inr ?_, trivial⟩).2 .workload (seconds 10800) next (by decide +kernel) finalised⟩
  intro leaf listed _ _
  obtain rfl := List.mem_singleton.mp listed
  decide

end RotationRun

end Reliaburger
