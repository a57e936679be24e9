import Reliaburger.Council.Frame

/-! API tokens along runs: their names stay distinct, an admin stays, and, where revocations leave
another token, the store stays filled. An empty store opens the API to everyone.
-/

namespace Reliaburger

open Checks ApiToken

abbrev DistinctNames (tokens : List ApiToken) : Prop := Rows.Unique ApiToken.name tokens

def HasAdmin (tokens : List ApiToken) : Prop := ∃ token ∈ tokens, token.role = .admin

/-- What an entry may do to the tokens, with the checks it passes. -/
inductive TokenChange (entry : CouncilEntry) (tokens : List ApiToken) : List ApiToken → Prop
  | same : TokenChange entry tokens tokens
  | seeded (seed : SecurityState) (payload : entry.payload = .request (.securityStateInit seed))
    (empty : tokens = []) : TokenChange entry tokens seed.apiTokens
  | added (token : ApiToken) (absent : ∀ existing ∈ tokens, existing.name ≠ token.name)
    : TokenChange entry tokens (tokens ++ [token])
  | rotated (rotation : TokenRotation)
    : TokenChange entry tokens (Rows.changeFirst (fun token => token.name == rotation.name)
        (ApiToken.applyRotation rotation) tokens)
  | revoked (name : String)
    (payload
      : entry.payload = .request (.revokeApiToken name)
        ∨ ∃ leaseId fingerprint,
            entry.payload = .request (.testLeaseRevokeApiToken leaseId name fingerprint))
    (guarded : ∀ token ∈ tokens, token.name = name → token.role = .admin
      → 2 ≤ (tokens.filter (fun token => token.role == .admin)).length)
    : TokenChange entry tokens (tokens.filter (fun token => token.name != name))
  | swept (nowUnixMs : Nat)
    : TokenChange entry tokens (tokens.filter (fun token =>
        !(tokensToSweep tokens nowUnixMs).contains token.name))

namespace DesiredState

variable {S : Surroundings} {state next : DesiredState} {entry : CouncilEntry}

theorem apiTokens_step (S : Surroundings) (state : DesiredState) (entry : CouncilEntry)
    : TokenChange entry state.security.apiTokens (state.step S entry).security.apiTokens := by
  rcases step_cases S state entry with
    ⟨request, _, next, payload, handled, _, after⟩ | ⟨_, _, after⟩
  · rw [after]
    by_cases touches : Area.apiTokens ∈ request.touches
    · cases request with
      | securityStateInit seed =>
        obtain ⟨_, none, rfl⟩ := securityStateInit_ok handled
        exact .seeded seed payload none
      | createApiToken token =>
        obtain ⟨_, fresh, accepted⟩ := bind_eq_ok.mp handled
        cases accepted
        rw [refuseWhen, refuseIf_eq_ok] at fresh
        exact .added token (by simpa using (not_or.mp fresh).2)
      | testLeaseApiToken leaseId ownerId observedAt token =>
        obtain ⟨_, _, rest⟩ := bind_eq_ok.mp handled
        obtain ⟨_, _, rest⟩ := bind_eq_ok.mp rest
        obtain ⟨_, _, rest⟩ := bind_eq_ok.mp rest
        obtain ⟨_, fresh, accepted⟩ := bind_eq_ok.mp rest
        cases accepted
        rw [refuseWhen, refuseIf_eq_ok] at fresh
        exact .added token (by simpa using (not_or.mp fresh).2)
      | rotateApiToken rotation =>
        obtain ⟨_, _, rest⟩ := bind_eq_ok.mp handled
        obtain ⟨_, _, accepted⟩ := bind_eq_ok.mp rest
        cases accepted
        exact .rotated rotation
      | sweepExpiredApiTokens nowUnixMs =>
        cases handled
        exact .swept nowUnixMs
      | revokeApiToken name =>
        obtain ⟨_, guarded, accepted⟩ := bind_eq_ok.mp handled
        cases accepted
        rw [refuseWhen, refuseIf_eq_ok, not_and, Nat.not_le] at guarded
        refine .revoked name (.inl payload) fun token listed named admin => guarded ?_
        exact List.any_eq_true.mpr ⟨token, listed, by simp [named, admin]⟩
      | testLeaseRevokeApiToken leaseId name fingerprint =>
        obtain ⟨_, _, rest⟩ := bind_eq_ok.mp handled
        obtain ⟨_, owned, accepted⟩ := bind_eq_ok.mp rest
        cases accepted
        rw [refuseWhen, refuseIf_eq_ok] at owned
        refine .revoked name (.inr ⟨_, _, payload⟩) fun token listed named admin =>
          absurd (List.any_eq_true.mpr ⟨token, listed, ?_⟩) owned
        simp [named, admin]
      | _ => simp [CouncilRequest.touches, specAreas] at touches
    · have same : next.security.apiTokens = state.security.apiTokens :=
        handle_frames request _ handled .apiTokens touches
      rw [same]
      exact .same
  · rw [after]
    exact .same

end DesiredState

-- The expiry sweep

theorem latestName_mem {candidates : List ApiToken} (filled : candidates ≠ [])
    : ∃ token ∈ candidates, latestName candidates = some token.name := by
  unfold latestName
  cases found : Extremes.maxBy compareExpiry candidates with
  | none => exact absurd (Extremes.maxBy_eq_none.mp found) filled
  | some token => exact ⟨token, Extremes.maxBy_mem found, rfl⟩

section

variable {tokens : List ApiToken}

variable {nowUnixMs : Nat}

/-- A token is not swept if it is not due, or if it is the one that is kept. -/
theorem not_swept {token : ApiToken}
    (distinct : DistinctNames tokens) (listed : token ∈ tokens)
    (kept : isDue nowUnixMs token = false ∨ sweepKeeps tokens nowUnixMs = some token.name)
    : (tokensToSweep tokens nowUnixMs).contains token.name = false := by
  rw [Bool.eq_false_iff, ne_eq, List.contains_iff_mem]
  intro swept
  simp only [tokensToSweep, List.mem_map, List.mem_filter, bne_iff_ne] at swept
  obtain ⟨_, ⟨⟨present, due⟩, notKept⟩, named⟩ := swept
  obtain rfl := distinct.eq present listed named
  rcases kept with notDue | keeps
  · rw [notDue] at due
    cases due
  · exact notKept keeps.symm

/-- Where every admin is due, one of them is kept. -/
theorem sweepKeeps_admin (admin : HasAdmin tokens)
    (due : ∀ token ∈ tokens, token.role = .admin → isDue nowUnixMs token = true)
    : ∃ token ∈ tokens, token.role = .admin
        ∧ sweepKeeps tokens nowUnixMs = some token.name := by
  have same : (tokens.filter (isDue nowUnixMs)).filter (fun token => token.role == .admin)
      = tokens.filter (fun token => token.role == .admin) := by
    rw [List.filter_filter]
    refine List.filter_congr fun token listed => ?_
    by_cases role : token.role = .admin
    · simp [role, due token listed role]
    · simp [role]
  have filled : tokens.filter (fun token => token.role == .admin) ≠ [] := by
    obtain ⟨token, listed, role⟩ := admin
    exact List.ne_nil_of_mem (List.mem_filter.mpr ⟨listed, by simp [role]⟩)
  obtain ⟨token, listed, named⟩ := latestName_mem filled
  obtain ⟨listed, role⟩ := List.mem_filter.mp listed
  refine ⟨token, listed, by simpa using role, ?_⟩
  unfold sweepKeeps
  dsimp only
  rw [same, if_pos (by simpa [List.length_pos_iff] using filled), named]

/-- Where no token is an admin and every one is due, one of them is kept. -/
theorem sweepKeeps_some (filled : tokens ≠ [])
    (noAdmin : ¬ HasAdmin tokens) (due : ∀ token ∈ tokens, isDue nowUnixMs token = true)
    : ∃ token ∈ tokens, sweepKeeps tokens nowUnixMs = some token.name := by
  have all : tokens.filter (isDue nowUnixMs) = tokens := List.filter_eq_self.mpr due
  have none : tokens.filter (fun token => token.role == .admin) = [] := by
    rw [List.filter_eq_nil_iff]
    intro token listed role
    exact noAdmin ⟨token, listed, by simpa using role⟩
  obtain ⟨token, listed, named⟩ := latestName_mem filled
  refine ⟨token, listed, ?_⟩
  unfold sweepKeeps
  dsimp only
  rw [all, none, if_neg (by simp), if_pos (by simpa using filled), named]

/-- The sweep leaves a token of some kind if it keeps one where all of that kind are due. -/
theorem sweep_keeps {kind : ApiToken → Prop} (distinct : DistinctNames tokens)
    (keeps : (∀ token ∈ tokens, kind token → isDue nowUnixMs token = true)
      → ∃ token ∈ tokens, kind token ∧ sweepKeeps tokens nowUnixMs = some token.name)
    : ∃ token ∈ tokens.filter (fun token =>
        !(tokensToSweep tokens nowUnixMs).contains token.name), kind token := by
  suffices kept : ∃ token ∈ tokens, kind token
      ∧ (isDue nowUnixMs token = false ∨ sweepKeeps tokens nowUnixMs = some token.name) by
    obtain ⟨token, listed, ofKind, kept⟩ := kept
    have stays := not_swept distinct listed kept
    exact ⟨token, List.mem_filter.mpr ⟨listed, by rw [stays]; rfl⟩, ofKind⟩
  by_cases due : ∀ token ∈ tokens, kind token → isDue nowUnixMs token = true
  · obtain ⟨token, listed, ofKind, kept⟩ := keeps due
    exact ⟨token, listed, ofKind, .inr kept⟩
  · push Not at due
    obtain ⟨token, listed, ofKind, notDue⟩ := due
    exact ⟨token, listed, ofKind, .inl (by simpa using notDue)⟩

/-- The sweep does not take the last token. -/
theorem sweep_keeps_some (nowUnixMs : Nat)
    (distinct : DistinctNames tokens) (filled : tokens ≠ [])
    : tokens.filter (fun token => !(tokensToSweep tokens nowUnixMs).contains token.name)
      ≠ [] := by
  by_cases admin : HasAdmin tokens
  · obtain ⟨token, listed, _⟩ := sweep_keeps distinct (sweepKeeps_admin admin)
    exact List.ne_nil_of_mem listed
  · obtain ⟨token, listed, _⟩ := sweep_keeps distinct fun due => by
      obtain ⟨token, listed, kept⟩ :=
        sweepKeeps_some filled admin fun token listed => due token listed trivial
      exact ⟨token, listed, trivial, kept⟩
    exact List.ne_nil_of_mem listed

end

-- One entry

def CouncilEntry.SeedsDistinctly (entry : CouncilEntry) : Prop :=
  ∀ seed, entry.payload = .request (.securityStateInit seed) → DistinctNames seed.apiTokens

/-- A revocation leaves a token: one of another name, or an admin, which a revocation of it alone
does not take. -/
def DesiredState.RevokesSafely (state : DesiredState) (entry : CouncilEntry) : Prop :=
  match entry.payload with
  | .request (.revokeApiToken name) | .request (.testLeaseRevokeApiToken _ name _) =>
    ∃ token ∈ state.security.apiTokens, token.name ≠ name ∨ token.role = .admin
  | _ => True

namespace TokenChange

variable {entry : CouncilEntry} {tokens after : List ApiToken}

theorem distinct (change : TokenChange entry tokens after) (seeds : entry.SeedsDistinctly)
    (distinct : DistinctNames tokens)
    : DistinctNames after := by
  cases change with
  | same => exact distinct
  | seeded seed payload _ => exact seeds seed payload
  | added token absent => exact distinct.push absent
  | rotated rotation => exact distinct.changeFirst fun _ _ => rfl
  | revoked | swept => exact distinct.filter _

/-- Of two admins one has another name than the given one. -/
theorem exists_other_admin (distinct : DistinctNames tokens)
    (two : 2 ≤ (tokens.filter (fun token => token.role == .admin)).length) (name : String)
    : ∃ token ∈ tokens, token.role = .admin ∧ token.name ≠ name := by
  have unique := distinct.filter (fun token => token.role == .admin)
  have listed : ∀ token ∈ tokens.filter (fun token => token.role == .admin),
      token ∈ tokens ∧ token.role = .admin := by
    simp
  match admins : tokens.filter (fun token => token.role == .admin) with
  | [] => simp [admins] at two
  | [_] => simp [admins] at two
  | first :: second :: rest =>
    rw [admins] at unique listed
    obtain ⟨inFirst, firstAdmin⟩ := listed first (by simp)
    obtain ⟨inSecond, secondAdmin⟩ := listed second (by simp)
    by_cases named : first.name = name
    · have apart : first.name ≠ second.name := by
        simp only [Rows.Unique, List.map_cons, List.nodup_cons, List.mem_cons, not_or] at unique
        exact unique.1.1
      exact ⟨second, inSecond, secondAdmin, fun same => apart (named.trans same.symm)⟩
    · exact ⟨first, inFirst, firstAdmin, named⟩

theorem hasAdmin (change : TokenChange entry tokens after) (distinct : DistinctNames tokens)
    (admin : HasAdmin tokens)
    : HasAdmin after := by
  cases change with
  | same => exact admin
  | seeded seed payload empty =>
    obtain ⟨token, listed, _⟩ := admin
    rw [empty] at listed
    cases listed
  | added token absent =>
    obtain ⟨token, listed, role⟩ := admin
    exact ⟨token, List.mem_append_left _ listed, role⟩
  | rotated rotation =>
    have roles : (Rows.changeFirst (fun token => token.name == rotation.name)
        (applyRotation rotation) tokens).map role
        = tokens.map role :=
      Rows.map_changeFirst (by simp [applyRotation]) tokens
    obtain ⟨token, listed, role⟩ := admin
    have present : token.role ∈ tokens.map ApiToken.role := List.mem_map_of_mem listed
    rw [← roles, role] at present
    obtain ⟨changed, found, role⟩ := List.mem_map.mp present
    exact ⟨changed, found, role⟩
  | revoked name _ guarded =>
    obtain ⟨token, listed, role⟩ := admin
    by_cases named : token.name = name
    · obtain ⟨other, listed, role, otherName⟩ :=
        exists_other_admin distinct (guarded token listed named role) name
      exact ⟨other, List.mem_filter.mpr ⟨listed, by simpa using otherName⟩, role⟩
    · exact ⟨token, List.mem_filter.mpr ⟨listed, by simpa using named⟩, role⟩
  | swept nowUnixMs => exact sweep_keeps distinct (sweepKeeps_admin admin)

theorem filled {state : DesiredState} (change : TokenChange entry state.security.apiTokens after)
    (safely : state.RevokesSafely entry) (distinct : DistinctNames state.security.apiTokens)
    (filled : state.security.apiTokens ≠ [])
    : after ≠ [] := by
  cases change with
  | same => exact filled
  | seeded seed payload empty => exact absurd empty filled
  | added token absent => simp
  | rotated rotation =>
    have kept : (Rows.changeFirst (fun token => token.name == rotation.name)
        (applyRotation rotation) state.security.apiTokens).map name
        = state.security.apiTokens.map name :=
      Rows.map_changeFirst (by simp [applyRotation]) _
    intro empty
    rw [empty] at kept
    exact filled (List.map_eq_nil_iff.mp kept.symm)
  | revoked name payload guarded =>
    have another : ∃ token ∈ state.security.apiTokens,
        token.name ≠ name ∨ token.role = .admin := by
      rcases payload with revoke | ⟨leaseId, fingerprint, revoke⟩ <;>
        simpa only [DesiredState.RevokesSafely, revoke] using safely
    obtain ⟨token, listed, otherName | role⟩ := another
    · exact List.ne_nil_of_mem (List.mem_filter.mpr ⟨listed, by simpa using otherName⟩)
    obtain ⟨_, listed, _⟩ := hasAdmin (.revoked name payload guarded) distinct
      ⟨token, listed, role⟩
    exact List.ne_nil_of_mem listed
  | swept nowUnixMs => exact sweep_keeps_some nowUnixMs distinct filled

end TokenChange

-- Runs

namespace DesiredState

section

variable {S : Surroundings} {state : DesiredState} {entries : List CouncilEntry}
  (seeds : ∀ entry ∈ entries, entry.SeedsDistinctly)
include seeds

theorem run_distinctNames (distinct : DistinctNames state.security.apiTokens)
    : DistinctNames (state.run S entries).security.apiTokens := by
  have meets : Runs.Meets (step S) (fun _ entry => entry.SeedsDistinctly) state entries :=
    Runs.meets_of_forall seeds
  exact meets.invariant (fun state => DistinctNames state.security.apiTokens)
    (fun state entry distinct seeds => (apiTokens_step S state entry).distinct seeds distinct)
    distinct

theorem run_hasAdmin (distinct : DistinctNames state.security.apiTokens)
    (admin : HasAdmin state.security.apiTokens)
    : HasAdmin (state.run S entries).security.apiTokens := by
  have meets : Runs.Meets (step S) (fun _ entry => entry.SeedsDistinctly) state entries :=
    Runs.meets_of_forall seeds
  refine (meets.invariant (fun state => DistinctNames state.security.apiTokens
    ∧ HasAdmin state.security.apiTokens) ?_ ⟨distinct, admin⟩).2
  intro state entry holds seeds
  have change := apiTokens_step S state entry
  exact ⟨change.distinct seeds holds.1, change.hasAdmin holds.1 holds.2⟩

theorem run_filled (safely : Runs.Meets (step S) RevokesSafely state entries)
    (distinct : DistinctNames state.security.apiTokens)
    (filled : state.security.apiTokens ≠ [])
    : (state.run S entries).security.apiTokens ≠ [] := by
  have meets := (Runs.meets_of_forall seeds).and safely
  refine (meets.invariant (fun state => DistinctNames state.security.apiTokens
    ∧ state.security.apiTokens ≠ []) ?_ ⟨distinct, filled⟩).2
  intro state entry holds allowed
  have change := apiTokens_step S state entry
  exact ⟨change.distinct allowed.1 holds.1, change.filled allowed.2 holds.1 holds.2⟩

end

/-- From the empty state, where a seed's tokens have distinct names: token names stay distinct and
an admin token stays; and the store stays filled along entries whose revocations leave a token. -/
theorem tokens_stay (S : Surroundings) (entries : List CouncilEntry)
    (seeds : ∀ entry ∈ entries, entry.SeedsDistinctly)
    : DistinctNames (run S {} entries).security.apiTokens
      ∧ ∀ first second, entries = first ++ second
          → (HasAdmin (run S {} first).security.apiTokens
              → HasAdmin (run S {} entries).security.apiTokens)
            ∧ (Runs.Meets (step S) RevokesSafely (run S {} first) second
              → (run S {} first).security.apiTokens ≠ []
              → (run S {} entries).security.apiTokens ≠ []) := by
  have start : DistinctNames ({} : DesiredState).security.apiTokens := List.nodup_nil
  refine ⟨run_distinctNames seeds start, ?_⟩
  rintro first second rfl
  have distinct := @run_distinctNames S {} first (fun entry listed =>
    seeds entry (List.mem_append_left _ listed)) start
  have later : ∀ entry ∈ second, entry.SeedsDistinctly :=
    fun entry listed => seeds entry (List.mem_append_right _ listed)
  rw [run_append]
  exact ⟨run_hasAdmin later distinct, fun safely => run_filled later safely distinct⟩

def deployerToken (name : String) : ApiToken where
  name
  tokenHash := "hash"
  role := .deployer

/-- The only token is revoked, since it is not an admin's. -/
theorem revoked_deployer_empties_store
    : ¬ ∀ (S : Surroundings) (first second : List CouncilEntry),
        (∀ entry ∈ first ++ second, entry.SeedsDistinctly)
        → (run S {} first).security.apiTokens ≠ []
        → (run S {} (first ++ second)).security.apiTokens ≠ [] := by
  intro claimed
  refine claimed plainSurroundings (requestEntries 1 [.createApiToken (deployerToken "ci")])
    (requestEntries 2 [.revokeApiToken "ci"]) ?_ (by decide +kernel) (by decide +kernel)
  simp [requestEntries, CouncilEntry.SeedsDistinctly]

/-- Of two tokens one may be revoked. -/
theorem revoked_deployer_leaves_another
    : (run plainSurroundings {} (requestEntries 1
        [.createApiToken (deployerToken "ci"), .createApiToken (deployerToken "cd"),
          .revokeApiToken "ci"])).security.apiTokens ≠ [] := by
  have stay := tokens_stay plainSurroundings (requestEntries 1
    [.createApiToken (deployerToken "ci"), .createApiToken (deployerToken "cd"),
      .revokeApiToken "ci"]) (by simp [requestEntries, CouncilEntry.SeedsDistinctly])
  refine (stay.2 (requestEntries 1 [.createApiToken (deployerToken "ci"),
    .createApiToken (deployerToken "cd")]) (requestEntries 3 [.revokeApiToken "ci"]) rfl).2
    ⟨?_, trivial⟩ (by decide +kernel)
  exact ⟨deployerToken "cd", by decide +kernel, by decide⟩

end DesiredState

end Reliaburger
