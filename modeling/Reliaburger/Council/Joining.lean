import Reliaburger.Council.Frame

/-! Joining nodes: the serials that the council hands out, and the single use of a join token. -/

namespace Reliaburger

open Checks CouncilEntry

def CouncilResponse.serial : CouncilResponse → Option Nat
  | .joinTokenConsumed serial | .serialAllocated serial => some serial
  | _ => none

namespace CouncilEntry

def takesSerial (entry : CouncilEntry) : Bool :=
  match entry.payload with
  | .request (.consumeJoinTokenForIssue _) | .request .allocateSerial
  | .request (.allocateNodeSerial _) | .request (.caRotationPrepare _ _ _ _) => true
  | _ => false

def createdHash (entry : CouncilEntry) : Option String :=
  match entry.payload with
  | .request (.createJoinToken token) => some token.tokenHash
  | _ => none

def presentedHash (entry : CouncilEntry) : Option String :=
  match entry.payload with
  | .request (.consumeJoinTokenForIssue tokenHash) => some tokenHash
  | _ => none

end CouncilEntry

namespace DesiredState

variable {S : Surroundings} {state next : DesiredState} {entry : CouncilEntry}

def returnedSerial (S : Surroundings) (state : DesiredState) (entry : CouncilEntry)
    : Option Nat :=
  if entry.takesSerial then (state.applyEntry S entry).1.serial else none

/-- The hash of the join token that an entry turned into a certificate. -/
def consumedHash (S : Surroundings) (state : DesiredState) (entry : CouncilEntry)
    : Option String :=
  match (state.applyEntry S entry).1 with
  | .joinTokenConsumed _ => entry.presentedHash
  | _ => none

/-- A seed arrives only where it is refused. -/
def SeedsOnce (state : DesiredState) (entry : CouncilEntry) : Prop :=
  match entry.payload with
  | .request (.securityStateInit _) => state.security.isInitialised = true
  | _ => True

variable {answer : CouncilResponse} {tokenHash : String}

theorem securityStateInit_refused {security : SecurityState}
    (initialised : state.security.isInitialised = true)
    : state.securityStateInit security ≠ .ok (answer, next) := by
  intro accepted
  obtain ⟨_, allowed, _⟩ := bind_eq_ok.mp accepted
  rw [refuseWhen, refuseIf_eq_ok] at allowed
  exact allowed initialised

/-- An accepted seed is the security state from then on. -/
theorem security_of_seeded {seed : SecurityState}
    (payload : entry.payload = .request (.securityStateInit seed))
    (accepted : (state.applyEntry S entry).1 = .applied)
    : (state.step S entry).security = seed := by
  rcases step_cases S state entry with
    ⟨_, _, _, payload', handled, _, after⟩ | ⟨_, refused, _⟩
  · rw [payload] at payload'
    obtain rfl := CouncilPayload.request.inj payload'
    obtain ⟨_, _, seeded⟩ := bind_eq_ok.mp handled
    cases seeded
    rw [after]
    rfl
  · obtain ⟨_, _, refused⟩ := refused _ payload
    rw [refused] at accepted
    cases accepted

-- Serials

/-- A consumed join token was there unconsumed, and is the first of its hash no more. -/
theorem consumeJoinTokenForIssue_eq_ok
    (consumed : state.consumeJoinTokenForIssue tokenHash = .ok (answer, next))
    : answer = .joinTokenConsumed state.security.nextSerial
      ∧ next.security.nextSerial = state.security.nextSerial + 1
      ∧ next.security.joinTokens = consumeToken state.security.joinTokens tokenHash
      ∧ ∃ token ∈ state.security.joinTokens,
          token.tokenHash = tokenHash ∧ token.consumed = false := by
  unfold consumeJoinTokenForIssue at consumed
  split at consumed
  · cases consumed
  rename_i token found
  obtain ⟨_, _, rest⟩ := bind_eq_ok.mp consumed
  obtain ⟨_, unconsumed, answered⟩ := bind_eq_ok.mp rest
  cases answered
  rw [refuseWhen, refuseIf_eq_ok, Bool.not_eq_true] at unconsumed
  exact ⟨rfl, rfl, rfl, token, List.mem_of_find?_eq_some found,
    by simpa using List.find?_some found, unconsumed⟩

/-- A request for a serial is answered with the counter, which then moves on. -/
theorem handle_takesSerial {position : ApplyEntryPosition} {request : CouncilRequest}
    (payload : entry.payload = .request request) (takes : entry.takesSerial = true)
    (handled : state.handle S position request = .ok (answer, next))
    : answer.serial = some state.security.nextSerial
      ∧ next.security.nextSerial = state.security.nextSerial + 1 := by
  cases request with
  | consumeJoinTokenForIssue tokenHash =>
    obtain ⟨rfl, moved, _⟩ := consumeJoinTokenForIssue_eq_ok handled
    exact ⟨rfl, moved⟩
  | allocateSerial =>
    cases handled
    exact ⟨rfl, rfl⟩
  | allocateNodeSerial nodeId =>
    obtain ⟨_, _, allocated⟩ := bind_eq_ok.mp handled
    cases allocated
    exact ⟨rfl, rfl⟩
  | caRotationPrepare role generation csrDer privateKeyWrapped =>
    obtain ⟨_, prepared, answered⟩ := bind_eq_ok.mp handled
    obtain ⟨_, _, rest⟩ := bind_eq_ok.mp (mapError_eq_ok.mp prepared)
    obtain ⟨_, _, rest⟩ := bind_eq_ok.mp rest
    obtain ⟨_, _, rest⟩ := bind_eq_ok.mp rest
    obtain ⟨_, _, rest⟩ := bind_eq_ok.mp rest
    obtain rfl := pure_eq_ok.mp rest
    cases answered
    exact ⟨rfl, rfl⟩
  | _ => simp [takesSerial, payload] at takes

/-- The counter never falls, and a serial is what the counter was. -/
theorem serial_step (once : SeedsOnce state entry)
    : state.security.nextSerial ≤ (state.step S entry).security.nextSerial
      ∧ ∀ serial, state.returnedSerial S entry = some serial
          → serial = state.security.nextSerial
            ∧ (state.step S entry).security.nextSerial = serial + 1 := by
  rcases step_cases S state entry with
    ⟨request, _, next, payload, handled, answered, after⟩ | ⟨_, refused, after⟩
  · rw [returnedSerial, after, answered]
    cases takes : entry.takesSerial with
    | true =>
      obtain ⟨serial, moved⟩ := handle_takesSerial payload takes handled
      refine ⟨by rw [moved]; exact Nat.le_succ _, fun returned found => ?_⟩
      rw [if_pos rfl, serial] at found
      exact Option.some.inj found ▸ ⟨rfl, moved⟩
    | false =>
      refine ⟨?_, by simp⟩
      by_cases touches : Area.nextSerial ∈ request.touches
      · cases request <;>
          simp [CouncilRequest.touches, specAreas, takesSerial, payload]
            at touches takes
        simp only [SeedsOnce, payload] at once
        exact absurd handled (securityStateInit_refused once)
      · exact (handle_frames request _ handled .nextSerial touches).ge
  · refine ⟨by rw [after], fun serial returned => ?_⟩
    unfold returnedSerial at returned
    split at returned
    · rename_i takes
      cases payload : entry.payload with
      | request request =>
        obtain ⟨_, _, refused⟩ := refused request payload
        simp [refused, CouncilResponse.serial] at returned
      | _ => simp [takesSerial, payload] at takes
    · cases returned

theorem returnedSerials_nodup {entries : List CouncilEntry}
    (once : Runs.Meets (step S) SeedsOnce state entries)
    : (Runs.outputs (step S) (returnedSerial S) state entries).Nodup := by
  refine (once.outputs_increase (fun state => state.security.nextSerial)
    (fun state entry once => (serial_step once).1) ?_).1.imp Nat.ne_of_lt
  intro state entry serial once returned
  obtain ⟨same, moved⟩ := (serial_step once).2 serial returned
  rw [moved, same]
  exact ⟨le_rfl, Nat.lt_succ_self _⟩

-- Join tokens

def joinHashes (state : DesiredState) : List String :=
  state.security.joinTokens.map (·.tokenHash)

/-- A join token with the hash is in the store, unconsumed. -/
def IsOpen (state : DesiredState) (tokenHash : String) : Prop :=
  ∃ token ∈ state.security.joinTokens, token.tokenHash = tokenHash ∧ token.consumed = false

section

variable (once : SeedsOnce state entry)
include once

/-- What an entry may do to the join tokens: nothing, add one at the cost of the consumed and the
oldest, or consume the first of a hash. -/
theorem joinTokens_step
    : ((state.step S entry).security.joinTokens = state.security.joinTokens
        ∧ state.consumedHash S entry = none)
      ∨ (∃ (token : JoinToken) (dropped : Nat),
          entry.createdHash = some token.tokenHash
          ∧ (state.step S entry).security.joinTokens
            = (state.security.joinTokens.filter (fun token => !token.consumed)
              ++ [token]).drop dropped
          ∧ state.consumedHash S entry = none)
      ∨ ∃ tokenHash,
          (state.step S entry).security.joinTokens
            = consumeToken state.security.joinTokens tokenHash
          ∧ ∀ consumed, state.consumedHash S entry = some consumed
              → consumed = tokenHash ∧ state.IsOpen tokenHash := by
  rcases step_cases S state entry with
    ⟨request, _, _, payload, handled, answered, after⟩ | ⟨_, refused, after⟩
  · rw [consumedHash, after, answered]
    by_cases touches : Area.joinTokens ∈ request.touches
    · cases request with
      | securityStateInit security =>
        simp only [SeedsOnce, payload] at once
        exact absurd handled (securityStateInit_refused once)
      | createJoinToken token =>
        obtain ⟨_, _, accepted⟩ := bind_eq_ok.mp handled
        cases accepted
        let tokens := state.security.joinTokens.filter (fun token => !token.consumed) ++ [token]
        refine .inr (.inl ⟨token, tokens.length - maxJoinTokens, ?_, ?_, rfl⟩)
        · rw [createdHash, payload]
        · simp only [withSecurity, tokens]
      | consumeJoinToken tokenHash =>
        cases handled
        exact .inr (.inr ⟨tokenHash, rfl, by simp⟩)
      | consumeJoinTokenForIssue tokenHash =>
        obtain ⟨rfl, _, tokens, isOpen⟩ := consumeJoinTokenForIssue_eq_ok handled
        refine .inr (.inr ⟨tokenHash, tokens, fun consumed found => ⟨?_, isOpen⟩⟩)
        simpa [presentedHash, payload] using found.symm
      | _ => simp [CouncilRequest.touches, specAreas] at touches
    · refine .inl ⟨handle_frames request _ handled .joinTokens touches, ?_⟩
      have other : entry.presentedHash = none := by
        cases request <;>
          first | rfl | simp [presentedHash, payload, CouncilRequest.touches]
            at touches ⊢
      split <;> simp [other]
  · refine .inl ⟨by rw [after], ?_⟩
    unfold consumedHash
    cases payload : entry.payload with
    | request request =>
      obtain ⟨_, _, refused⟩ := refused request payload
      rw [refused]
    | _ => split <;> simp [presentedHash, payload]

/-- The hashes in the store are those there before, less some, and the one created. -/
theorem joinHashes_step
    : (state.step S entry).joinHashes.Sublist (state.joinHashes ++ entry.createdHash.toList) := by
  unfold joinHashes
  rcases joinTokens_step once with
    ⟨same, _⟩ | ⟨token, _, created, same, _⟩ | ⟨_, same, _⟩
  · rw [same]
    exact List.sublist_append_left _ _
  · rw [same, created, Option.toList_some, ← List.map_singleton, ← List.map_append]
    exact ((List.drop_sublist _ _).trans (List.filter_sublist.append_right _)).map _
  · rw [same, consumeToken, Rows.map_changeFirst (by simp)]
    exact List.sublist_append_left _ _

/-- A token becomes open only by being created. -/
theorem isOpen_step (isOpen : (state.step S entry).IsOpen tokenHash)
    : state.IsOpen tokenHash ∨ entry.createdHash = some tokenHash := by
  obtain ⟨token, listed, rfl, unconsumed⟩ := isOpen
  rcases joinTokens_step once with
    ⟨same, _⟩ | ⟨_, _, hash, same, _⟩ | ⟨_, same, _⟩
  · exact .inl ⟨token, same ▸ listed, rfl, unconsumed⟩
  · rw [same] at listed
    rcases List.mem_append.mp (List.mem_of_mem_drop listed) with kept | new
    · exact .inl ⟨token, List.mem_of_mem_filter kept, rfl, unconsumed⟩
    · rw [List.mem_singleton.mp new]
      exact .inr hash
  · rw [same] at listed
    rcases Rows.mem_of_changeFirst listed with kept | ⟨_, _, _, rfl⟩
    · exact .inl ⟨token, kept, rfl, unconsumed⟩
    · cases unconsumed

/-- A token that became a certificate was open and is so no more. -/
theorem consumed_step (unique : state.joinHashes.Nodup)
    (consumed : state.consumedHash S entry = some tokenHash)
    : state.IsOpen tokenHash ∧ ¬ (state.step S entry).IsOpen tokenHash := by
  rcases joinTokens_step once with
    ⟨_, none⟩ | ⟨_, _, _, _, none⟩ | ⟨_, same, used⟩
  · rw [none] at consumed
    cases consumed
  · rw [none] at consumed
    cases consumed
  · obtain ⟨rfl, isOpen⟩ := used tokenHash consumed
    refine ⟨isOpen, ?_⟩
    rintro ⟨token, listed, named, unconsumed⟩
    have selects (token : JoinToken)
        : (token.tokenHash == tokenHash) = true ↔ token.tokenHash = tokenHash := beq_iff_eq
    rw [same, consumeToken, Rows.mem_changeFirst unique selects] at listed
    rcases listed with ⟨_, _, _, rfl⟩ | ⟨_, other⟩
    · cases unconsumed
    · exact other named

end

/-- Where every hash is created once, only tokens that are open or yet to be created become
certificates, and each once. -/
theorem consumedHashes_nodup {entries : List CouncilEntry}
    (once : Runs.Meets (step S) SeedsOnce state entries)
    (unique : (state.joinHashes ++ entries.filterMap (·.createdHash)).Nodup)
    : (Runs.outputs (step S) (consumedHash S) state entries).Nodup
      ∧ ∀ tokenHash ∈ Runs.outputs (step S) (consumedHash S) state entries,
          state.IsOpen tokenHash ∨ tokenHash ∈ entries.filterMap (·.createdHash) := by
  induction entries generalizing state with
  | nil => simp [Runs.outputs]
  | cons entry rest ih =>
    have created : (entry :: rest).filterMap (·.createdHash)
        = entry.createdHash.toList ++ rest.filterMap (·.createdHash) := by
      cases hash : entry.createdHash <;> simp [hash]
    rw [created, ← List.append_assoc] at unique
    obtain ⟨distinct, remaining⟩ := ih once.2
      (((joinHashes_step once.1).append_right _).nodup unique)
    have known : ∀ tokenHash ∈ Runs.outputs (step S) (consumedHash S) (state.step S entry) rest,
        state.IsOpen tokenHash ∨ tokenHash ∈ (entry :: rest).filterMap (·.createdHash) := by
      intro tokenHash listed
      rw [created, List.mem_append, Option.mem_toList]
      rcases remaining tokenHash listed with isOpen | later
      · exact (isOpen_step once.1 isOpen).imp_right .inl
      · exact .inr (.inr later)
    cases consumed : state.consumedHash S entry with
    | none =>
      simp only [Runs.outputs, consumed, Option.toList_none, List.nil_append]
      exact ⟨distinct, known⟩
    | some tokenHash =>
      obtain ⟨distinctHashes, _, apart⟩ := List.nodup_append.mp unique
      obtain ⟨isOpen, closed⟩ := consumed_step once.1
        (List.Nodup.of_append_left distinctHashes) consumed
      simp only [Runs.outputs, consumed, Option.toList_some, List.singleton_append,
        List.nodup_cons, List.mem_cons, forall_eq_or_imp]
      refine ⟨⟨fun again => ?_, distinct⟩, .inl isOpen, known⟩
      rcases remaining tokenHash again with reopened | later
      · exact closed reopened
      obtain ⟨token, listed, named, _⟩ := isOpen
      have stored : tokenHash ∈ state.joinHashes :=
        List.mem_map.mpr ⟨token, listed, named⟩
      exact apart tokenHash (List.mem_append_left _ stored) tokenHash later rfl

-- After the seed

/-- After an accepted seed no serial is handed out twice, as long as later seeds are refused; and
if no join token's hash is created twice, no token becomes a certificate twice. -/
theorem serials_and_tokens_used_once (S : Surroundings) (state : DesiredState)
    (seed : SecurityState) (init : CouncilEntry)
    (payload : init.payload = .request (.securityStateInit seed))
    (accepted : (state.applyEntry S init).1 = .applied) (entries : List CouncilEntry)
    (once : Runs.Meets (step S) SeedsOnce (state.step S init) entries)
    : (Runs.outputs (step S) (returnedSerial S) (state.step S init) entries).Nodup
      ∧ ((seed.joinTokens.map (·.tokenHash) ++ entries.filterMap (·.createdHash)).Nodup
        → (Runs.outputs (step S) (consumedHash S) (state.step S init) entries).Nodup) := by
  refine ⟨returnedSerials_nodup once, fun unique => (consumedHashes_nodup once ?_).1⟩
  rwa [joinHashes, security_of_seeded payload accepted]

def oneCaSeed : SecurityState where
  certificateAuthorities := [{
    role := .root
    certificateDer := "root"
    privateKeyWrapped := none
    serial := 1
    notBefore := 0
    notAfter := seconds 1000
    issuerSerial := none
    generation := 0
    state := .active }]
  nextSerial := 2

def freshJoinToken : JoinToken := ⟨"hash", false, "node"⟩

/-- A creation that is retried after its token was used creates it again. -/
theorem retried_join_token_used_twice
    : ¬ ∀ (S : Surroundings) (state : DesiredState) (seed : SecurityState) (init : CouncilEntry),
        init.payload = .request (.securityStateInit seed)
        → (state.applyEntry S init).1 = .applied
        → ∀ entries : List CouncilEntry,
            (Runs.outputs (step S) (returnedSerial S) (state.step S init) entries).Nodup
            ∧ (Runs.outputs (step S) (consumedHash S) (state.step S init) entries).Nodup := by
  intro claimed
  have distinct := (claimed plainSurroundings {} oneCaSeed
    ⟨⟨1, 1⟩, .request (.securityStateInit oneCaSeed)⟩ rfl (by decide +kernel)
    (requestEntries 2 [.createJoinToken freshJoinToken, .consumeJoinTokenForIssue "hash",
      .createJoinToken freshJoinToken, .consumeJoinTokenForIssue "hash"])).2
  revert distinct
  decide +kernel

/-- A token is created, used, and presented again. -/
theorem join_token_used_once
    : (Runs.outputs (step plainSurroundings) (consumedHash plainSurroundings)
        (({} : DesiredState).step plainSurroundings
          ⟨⟨1, 1⟩, .request (.securityStateInit oneCaSeed)⟩)
        (requestEntries 2 [.createJoinToken freshJoinToken, .consumeJoinTokenForIssue "hash",
          .consumeJoinTokenForIssue "hash", .securityStateInit oneCaSeed])).Nodup :=
  (serials_and_tokens_used_once plainSurroundings {} oneCaSeed
    ⟨⟨1, 1⟩, .request (.securityStateInit oneCaSeed)⟩ rfl (by decide +kernel)
    (requestEntries 2 [.createJoinToken freshJoinToken, .consumeJoinTokenForIssue "hash",
      .consumeJoinTokenForIssue "hash", .securityStateInit oneCaSeed])
    ⟨trivial, trivial, trivial, by unfold SeedsOnce; decide +kernel, trivial⟩).2 (by decide +kernel)

end DesiredState

end Reliaburger
