import Reliaburger.Library.Runs
import Reliaburger.Onion.Endpoints

/-! What a consumer of the service catalogue keeps about its publications: every view that may
still be exposed, how far replacing it got, and the withdrawals it must confirm to the leader. Its
records promise that publications move forward, and that a withdrawal once confirmed stays so.
-/

namespace Reliaburger

open Checks

def maxPublications : Nat := 1024

def maxExposures : Nat := 65536

structure ConsumerIdentity where
  nodeId : String
  clusterIdentity : Vector UInt8 32
deriving DecidableEq

structure IngressAssignment where
  name : String
  ns : String
  config : Section
deriving DecidableEq

structure EndpointWithdrawalInstruction where
  /-- The last catalogue that exposed what is withdrawn. -/
  generation : Nat
  services : BTreeMap String ServiceWithdrawal
deriving DecidableEq

structure ConsumerPublication where
  generation : Nat
  catalog : EndpointCatalog
  /-- The proposed view of local and remote services. -/
  effectiveServices : List ServiceEntry
  ingress : List IngressAssignment := []
deriving DecidableEq

/-- A backend that a withdrawal removed, under any execution if it named none. -/
def CatalogBackend.isOriginal (candidate original : CatalogBackend) : Bool :=
  candidate.nodeId == original.nodeId
    && candidate.nodeIp == original.nodeIp
    && candidate.hostPort == original.hostPort
    && (original.execution.isNone || candidate.execution == original.execution)

namespace ConsumerPublication

def listsBackend (publication : ConsumerPublication) (removed : ServiceWithdrawal) : Bool :=
  publication.catalog.services.valueList.any (fun service =>
    service.backends.any (fun candidate =>
      removed.service.backends.any (fun original => candidate.isOriginal original)))

/-- Whether this view still exposes anything the withdrawal removes. A newer catalogue that lists a
backend again published it again. -/
def intersects (publication : ConsumerPublication) (withdrawal : EndpointWithdrawalInstruction)
    : Bool :=
  let republished := decide (publication.generation > withdrawal.generation)
  withdrawal.services.valueList.any (fun removed =>
    publication.effectiveServices.any (fun entry =>
      removed.retireVip && entry.vip == removed.service.vip)
    || !republished && publication.listsBackend removed)

end ConsumerPublication

/-- How far the newest publication got. -/
inductive ConsumerPhase where
  | publishing
  | active
  | withdrawing
  | withdrawn
deriving DecidableEq, Repr

inductive ReceiptPhase where
  | pending
  | ready
deriving DecidableEq, Repr

structure ConsumerReceipt where
  withdrawal : EndpointWithdrawalInstruction
  phase : ReceiptPhase
deriving DecidableEq

structure ConsumerOwnership where
  identity : ConsumerIdentity
  publications : List ConsumerPublication
  phase : ConsumerPhase := .withdrawing
  receipts : BTreeMap Nat ConsumerReceipt := ∅

inductive ConsumerRefusal where
  | because (reason : String)
  | onion (error : OnionError)
deriving DecidableEq, Repr

-- One record

def addExposures (exposures backends : Nat) : Except ConsumerRefusal Nat :=
  if exposures + 1 + backends ≤ maxExposures then .ok (exposures + 1 + backends)
  else .error (.because "consumer exposure capacity exhausted")

def checkIngress : List IngressAssignment → List (String × String) → Except ConsumerRefusal Unit
  | [], _ => .ok ()
  | route :: rest, seen =>
    if seen.contains (route.ns, route.name) then
      .error (.because "duplicate consumer ingress assignment")
    else checkIngress rest ((route.ns, route.name) :: seen)

/-- Each catalogue is of a later generation than the one before it, or the same. -/
def checkOrder : List ConsumerPublication → Except ConsumerRefusal Unit
  | first :: second :: rest => do
      refuseIf (second.generation < first.generation
          ∨ (second.generation = first.generation ∧ second.catalog ≠ first.catalog))
        (.because "consumer catalogue generation regressed or changed")
      checkOrder (second :: rest)
  | _ => .ok ()

namespace ConsumerOwnership

def checkReceipt (record : ConsumerOwnership) (exposures : Nat) (row : Nat × ConsumerReceipt)
    : Except ConsumerRefusal Nat := do
  let withdrawal := row.2.withdrawal
  refuseIf (row.1 = 0
      ∨ row.1 ≠ withdrawal.generation
      ∨ record.publications.getLast?.all (fun last => row.1 ≥ last.generation) = true
      ∨ withdrawal.services.isEmpty = true)
    (.because "invalid consumer withdrawal generation")
  let catalog : EndpointCatalog :=
    { services := withdrawal.services.map (fun _ removed => removed.service) }
  catalog.validateAllocations.mapError .onion
  catalog.services.valueList.foldlM (fun exposures service =>
    addExposures exposures service.backends.length) exposures

def checkExpected (effective : ServiceMap) (expected : ServiceEntry)
    : Except ConsumerRefusal Unit :=
  match effective.resolve ⟨expected.ns, expected.appName⟩ with
  | none => .error (.because "effective view omits a catalogue service")
  | some actual =>
    refuseIf (actual.vip ≠ expected.vip
        ∨ actual.port ≠ expected.port
        ∨ expected.backends.any (fun backend => !actual.backends.contains backend) = true)
      (.because "effective view conflicts with original catalogue")

def checkPublication (nameToId : String → Nat) (record : ConsumerOwnership) (exposures : Nat)
    (publication : ConsumerPublication)
    : Except ConsumerRefusal Nat := do
  let backends :=
    publication.catalog.services.valueList.map (fun service => service.backends.length)
    ++ publication.effectiveServices.map (fun entry => entry.backends.length)
  let exposures ← backends.foldlM addExposures exposures
  publication.catalog.validateAllocations.mapError .onion
  refuseIf (publication.generation = 0 ∧ publication.catalog.services.isEmpty = false)
    (.because "nonempty catalogue has no committed generation")
  let effective ← (ServiceMap.fromSnapshot nameToId publication.effectiveServices).mapError .onion
  checkIngress publication.ingress []
  let remote := ServiceMap.withClusterCatalogExcludingNode nameToId {} publication.catalog
    (some record.identity.nodeId)
  checkAll (checkExpected effective) remote.resolveAll
  pure exposures

def validate (nameToId : String → Nat) (record : ConsumerOwnership)
    : Except ConsumerRefusal Unit := do
  (validateNodeId record.identity.nodeId).mapError .because
  refuseIf (record.publications.length > maxPublications
      ∨ record.receipts.size > maxPublications)
    (.because "consumer publication capacity exhausted")
  let exposures ← record.receipts.toList.foldlM record.checkReceipt 0
  let _ ← record.publications.foldlM (record.checkPublication nameToId) exposures
  checkOrder record.publications

end ConsumerOwnership

-- Two records

def ConsumerPhase.allows : ConsumerPhase → ConsumerPhase → Bool
  | .active, next => next == .active || next == .publishing || next == .withdrawing
  | .publishing, next => next == .publishing || next == .active || next == .withdrawing
  | .withdrawing, next => next == .withdrawing || next == .withdrawn
  | .withdrawn, next => next == .withdrawn || next == .publishing || next == .withdrawing

namespace ConsumerOwnership

/-- A pending receipt becomes ready after a full withdrawal, or once no view that may still be
exposed has anything the withdrawal removes. -/
def receiptProven (previous next : ConsumerOwnership)
    (withdrawal : EndpointWithdrawalInstruction)
    : Bool :=
  match previous.phase, next.phase with
  | .withdrawn, .withdrawn => true
  | .active, .active =>
    !next.publications.any (fun publication => publication.intersects withdrawal)
  | _, _ => false

/-- What must stay of the publications between two records. -/
def checkHistory (previous next : ConsumerOwnership) : Except ConsumerRefusal Unit :=
  let history := previous.publications
  let retained : ConsumerRefusal :=
    .because "original consumer publication history must be retained"
  match previous.phase, next.phase with
  | .active, .publishing =>
    -- Replacing in place appends exactly one view.
    refuseIf (next.publications.length ≠ history.length + 1 ∨ ¬ history <+: next.publications)
      retained
  | .active, .active =>
    refuseIf (next.publications ≠ history
        ∧ (next.publications = [] ∨ ¬ next.publications <:+ history))
      (.because "consumer compaction must keep the published view")
  | .withdrawn, _ =>
    match history.getLast? with
    | none => .ok ()
    | some last =>
      match next.publications.getLast? with
      | none => .error (.because "consumer generation fence cannot be forgotten")
      | some nextLast =>
        refuseIf (nextLast.generation < last.generation
            ∨ (nextLast.generation = last.generation ∧ nextLast.catalog ≠ last.catalog))
          (.because "consumer generation fence regressed or changed")
  | _, _ =>
    refuseIf (¬ history <+: next.publications
        ∨ (next.phase ≠ .withdrawing ∧ next.publications ≠ history))
      retained

def checkRetained (previous next : ConsumerOwnership) (row : Nat × ConsumerReceipt)
    : Except ConsumerRefusal Unit :=
  let receipt := row.2
  let kept := match next.receipts[row.1]? with
    | none => receipt.phase == .ready
    | some retained =>
      retained.withdrawal == receipt.withdrawal
      && (retained.phase == receipt.phase
        || (receipt.phase == .pending && receiptProven previous next receipt.withdrawal))
  refuseIf (kept = false)
    (.because "original consumer receipt has no withdrawal or acknowledgement permission")

def checkNew (previous : ConsumerOwnership) (row : Nat × ConsumerReceipt)
    : Except ConsumerRefusal Unit :=
  refuseIf (row.1 ∉ previous.receipts ∧ row.2.phase ≠ .pending)
    (.because "new consumer receipt has no withdrawal proof")

end ConsumerOwnership

open ConsumerOwnership in
def validateTransition (previous next : Option ConsumerOwnership)
    : Except ConsumerRefusal Unit :=
  match previous, next with
  | none, _ => .ok ()
  | some _, none => .error (.because "consumer ownership cannot be forgotten")
  | some previous, some next => do
      refuseIf (next.identity ≠ previous.identity) (.because "consumer enrolment identity changed")
      refuseIf (previous.phase.allows next.phase = false)
        (.because "consumer withdrawal permission is missing")
      checkHistory previous next
      checkAll (checkRetained previous next) previous.receipts.toList
      checkAll (checkNew previous) next.receipts.toList

open BTreeMap ConsumerOwnership

/-- A sequence of records as the journal accepts them. -/
structure ConsumerHistory (nameToId : String → Nat) (records : List ConsumerOwnership) : Prop where
  valid : ∀ record ∈ records, record.validate nameToId = .ok ()
  follows : records.IsChain fun previous next =>
    validateTransition (some previous) (some next) = .ok ()

namespace ConsumerOwnership

variable {nameToId : String → Nat} {record previous next : ConsumerOwnership}

-- One record

/-- The last publication is of a later generation. -/
def IsPast (record : ConsumerOwnership) (generation : Nat) : Prop :=
  ∃ last, record.publications.getLast? = some last ∧ generation < last.generation

theorem ordered_of_checkOrder {publications : List ConsumerPublication}
    (checked : checkOrder publications = .ok ())
    : publications.Pairwise fun first second => first.generation ≤ second.generation := by
  let notAfter (first second : ConsumerPublication) : Prop := first.generation ≤ second.generation
  have : Trans notAfter notAfter notAfter := ⟨Nat.le_trans⟩
  refine List.isChain_iff_pairwise.mp (show publications.IsChain notAfter from ?_)
  induction publications with
  | nil => exact .nil
  | cons first rest ih =>
    cases rest with
    | nil => exact .singleton first
    | cons second rest =>
      obtain ⟨_, ordered, later⟩ := bind_eq_ok.mp checked
      rw [refuseIf_eq_ok, not_or, Nat.not_lt] at ordered
      exact .cons_cons ordered.1 (ih later)

theorem receipt_of_fold {rows : List (Nat × ConsumerReceipt)} {exposures counted : Nat}
    (checked : rows.foldlM record.checkReceipt exposures = .ok counted)
    : ∀ row ∈ rows, row.1 = row.2.withdrawal.generation ∧ record.IsPast row.1 := by
  induction rows generalizing exposures with
  | nil => simp
  | cons row rest ih =>
    rw [List.foldlM_cons] at checked
    obtain ⟨_, here, later⟩ := bind_eq_ok.mp checked
    obtain ⟨_, sound, _⟩ := bind_eq_ok.mp here
    simp only [refuseIf_eq_ok, not_or, not_not] at sound
    refine List.forall_mem_cons.mpr ⟨⟨sound.2.1, ?_⟩, ih later⟩
    cases found : record.publications.getLast? with
    | none => simp [found] at sound
    | some last => exact ⟨last, found, by simpa [found] using sound.2.2.1⟩

/-- What validation promises about a record. -/
theorem of_validate (valid : record.validate nameToId = .ok ())
    : (record.publications.Pairwise fun first second => first.generation ≤ second.generation)
      ∧ ∀ (generation : Nat) (receipt : ConsumerReceipt),
          record.receipts[generation]? = some receipt
          → generation = receipt.withdrawal.generation ∧ record.IsPast generation := by
  obtain ⟨_, _, valid⟩ := bind_eq_ok.mp valid
  obtain ⟨_, _, valid⟩ := bind_eq_ok.mp valid
  obtain ⟨_, receipts, valid⟩ := bind_eq_ok.mp valid
  obtain ⟨_, _, ordered⟩ := bind_eq_ok.mp valid
  refine ⟨ordered_of_checkOrder ordered, fun generation receipt found => ?_⟩
  exact receipt_of_fold receipts (generation, receipt) (mem_toList.mpr found)

-- Two records

/-- How the publications of a record come from those of the previous one. -/
inductive Carries (previous next : ConsumerOwnership) : Prop
  | append (more : List ConsumerPublication)
    (appended : next.publications = previous.publications ++ more)
  | compact (forgotten : List ConsumerPublication) (kept : next.publications ≠ [])
    (compacted : previous.publications = forgotten ++ next.publications)
  | replace (withdrawn : previous.phase = .withdrawn)
    (fenced : ∀ last, previous.publications.getLast? = some last
      → ∃ newer, next.publications.getLast? = some newer ∧ last.generation ≤ newer.generation)

theorem carries_of_checkHistory (checked : checkHistory previous next = .ok ())
    : Carries previous next := by
  have appends (kept : previous.publications <+: next.publications) : Carries previous next := by
    obtain ⟨more, same⟩ := kept
    exact .append more same.symm
  unfold checkHistory at checked
  dsimp only at checked
  split at checked
  · rw [refuseIf_eq_ok, not_or] at checked
    exact appends (not_not.mp checked.2)
  · rw [refuseIf_eq_ok] at checked
    by_cases same : next.publications = previous.publications
    · exact .append [] (by simp [same])
    simp only [not_and, not_or, not_not] at checked
    obtain ⟨kept, forgotten, compacted⟩ := checked same
    exact .compact forgotten kept compacted.symm
  · rename_i atWithdrawn
    refine .replace atWithdrawn fun last found => ?_
    rw [found] at checked
    dsimp only at checked
    cases newest : next.publications.getLast? with
    | none =>
      rw [newest] at checked
      cases checked
    | some newer =>
      rw [newest] at checked
      dsimp only at checked
      rw [refuseIf_eq_ok, not_or, Nat.not_lt] at checked
      exact ⟨newer, rfl, checked.1⟩
  · rw [refuseIf_eq_ok, not_or, not_not] at checked
    exact appends checked.1

/-- How a receipt comes from the previous record. -/
theorem of_validateTransition
    (follows : validateTransition (some previous) (some next) = .ok ())
    : Carries previous next
      ∧ (∀ (generation : Nat) (receipt : ConsumerReceipt),
          previous.receipts[generation]? = some receipt
          → (next.receipts[generation]? = none ∧ receipt.phase = .ready)
            ∨ ∃ retained, next.receipts[generation]? = some retained
                ∧ retained.withdrawal = receipt.withdrawal
                ∧ (retained.phase = receipt.phase
                  ∨ (receipt.phase = .pending
                    ∧ receiptProven previous next receipt.withdrawal = true)))
      ∧ ∀ (generation : Nat) (receipt : ConsumerReceipt),
          next.receipts[generation]? = some receipt
          → previous.receipts[generation]? = none
          → receipt.phase = .pending := by
  obtain ⟨_, _, follows⟩ := bind_eq_ok.mp follows
  obtain ⟨_, _, follows⟩ := bind_eq_ok.mp follows
  obtain ⟨_, history, follows⟩ := bind_eq_ok.mp follows
  obtain ⟨_, retained, new⟩ := bind_eq_ok.mp follows
  rw [checkAll_eq_ok] at retained new
  refine ⟨carries_of_checkHistory history, fun generation receipt found => ?_,
    fun generation receipt found absent => ?_⟩
  · have checked := retained (generation, receipt) (mem_toList.mpr found)
    simp only [checkRetained, refuseIf_eq_ok, Bool.not_eq_false] at checked
    cases kept : next.receipts[generation]? with
    | none =>
      simp only [kept, beq_iff_eq] at checked
      exact .inl ⟨rfl, checked⟩
    | some later =>
      simp only [kept, Bool.and_eq_true, Bool.or_eq_true, beq_iff_eq] at checked
      exact .inr ⟨later, rfl, checked⟩
  · have checked := new (generation, receipt) (mem_toList.mpr found)
    rw [checkNew, refuseIf_eq_ok, not_and, not_not] at checked
    exact checked (not_mem_iff.mpr absent)

-- The last publication

theorem last_carried {last : ConsumerPublication} (carries : Carries previous next)
    (valid : next.validate nameToId = .ok ())
    (found : previous.publications.getLast? = some last)
    : ∃ newer, next.publications.getLast? = some newer ∧ last.generation ≤ newer.generation := by
  cases carries with
  | append more appended =>
    have ordered := (of_validate valid).1
    rw [appended, List.pairwise_append] at ordered
    cases newest : more.getLast? with
    | none =>
      rw [List.getLast?_eq_none_iff.mp newest, List.append_nil] at appended
      exact ⟨last, by rw [appended, found], Nat.le_refl _⟩
    | some newer =>
      refine ⟨newer, by rw [appended, List.getLast?_append, newest, Option.some_or], ?_⟩
      exact ordered.2.2 last (List.mem_of_getLast? found) newer (List.mem_of_getLast? newest)
  | compact forgotten kept compacted =>
    refine ⟨last, ?_, Nat.le_refl _⟩
    rw [compacted, List.getLast?_append_of_ne_nil _ kept] at found
    exact found
  | replace withdrawn fenced => exact fenced last found

/-- A generation that is past stays so. -/
theorem isPast_carried {generation : Nat} (carries : Carries previous next)
    (valid : next.validate nameToId = .ok ()) (past : previous.IsPast generation)
    : next.IsPast generation := by
  obtain ⟨_, found, later⟩ := past
  obtain ⟨newer, newest, grows⟩ := last_carried carries valid found
  exact ⟨newer, newest, later.trans_le grows⟩

-- Confirmed withdrawals

end ConsumerOwnership

/-- The publication exposes a backend that the withdrawal removed, through a catalogue that is not
newer. -/
def ConsumerPublication.Exposes (publication : ConsumerPublication)
    (withdrawal : EndpointWithdrawalInstruction)
    : Prop :=
  publication.generation ≤ withdrawal.generation
  ∧ ∃ removed ∈ withdrawal.services.valueList, publication.listsBackend removed = true

theorem ConsumerPublication.Exposes.intersects {publication : ConsumerPublication}
    {withdrawal : EndpointWithdrawalInstruction} (exposes : publication.Exposes withdrawal)
    : publication.intersects withdrawal = true := by
  obtain ⟨old, removed, listed, lists⟩ := exposes
  refine List.any_eq_true.mpr ⟨removed, listed, ?_⟩
  simp [lists, old]

namespace ConsumerOwnership

variable {nameToId : String → Nat} {record previous next : ConsumerOwnership}

/-- No publication of the record exposes what was withdrawn, and its catalogue is replaced. -/
structure Clear (withdrawal : EndpointWithdrawalInstruction) (record : ConsumerOwnership)
    : Prop where
  past : record.IsPast withdrawal.generation
  hidden : ∀ publication ∈ record.publications, ¬ publication.Exposes withdrawal

theorem clear_carried {withdrawal : EndpointWithdrawalInstruction}
    (carries : Carries previous next) (valid : next.validate nameToId = .ok ())
    (exposed : previous.phase ≠ .withdrawn) (clear : Clear withdrawal previous)
    : Clear withdrawal next := by
  refine ⟨isPast_carried carries valid clear.past, fun publication listed => ?_⟩
  cases carries with
  | append more appended =>
    have ordered := (of_validate valid).1
    rw [appended, List.pairwise_append] at ordered
    rw [appended, List.mem_append] at listed
    rcases listed with old | new
    · exact clear.hidden publication old
    -- What is added is newer than the last publication, so newer than the withdrawal.
    obtain ⟨last, found, _⟩ := clear.past
    rintro ⟨_, _⟩
    have grows := ordered.2.2 last (List.mem_of_getLast? found) publication new
    omega
  | compact forgotten kept compacted =>
    refine clear.hidden publication ?_
    rw [compacted]
    exact List.mem_append_right _ listed
  | replace withdrawn _ => exact absurd withdrawn exposed

/-- A receipt becomes ready after a full withdrawal, or in a record that exposes nothing of what is
withdrawn. -/
theorem clear_of_ready {generation : Nat} {pending ready : ConsumerReceipt}
    (follows : validateTransition (some previous) (some next) = .ok ())
    (valid : next.validate nameToId = .ok ())
    (before : previous.receipts[generation]? = some pending) (waits : pending.phase = .pending)
    (after : next.receipts[generation]? = some ready) (confirmed : ready.phase = .ready)
    : ready.withdrawal = pending.withdrawal
      ∧ ((previous.phase = .withdrawn ∧ next.phase = .withdrawn)
        ∨ Clear ready.withdrawal next) := by
  obtain ⟨_, receipts, _⟩ := of_validateTransition follows
  rcases receipts generation pending before with ⟨gone, _⟩ | ⟨_, found, same, phases⟩
  · rw [after] at gone
    cases gone
  rw [after] at found
  cases found
  refine ⟨same, ?_⟩
  rw [confirmed, waits] at phases
  obtain ⟨_, proven⟩ := phases.resolve_left (by simp)
  unfold receiptProven at proven
  split at proven
  · next withdrawn withdrawnNext => exact .inl ⟨withdrawn, withdrawnNext⟩
  · refine .inr ⟨?_, fun publication listed exposes => ?_⟩
    · obtain ⟨named, past⟩ := (of_validate valid).2 generation ready after
      exact named ▸ past
    · rw [same] at exposes
      simp only [Bool.not_eq_true', List.any_eq_false] at proven
      exact proven publication listed exposes.intersects
  · cases proven

end ConsumerOwnership

-- Whole histories

section

variable {nameToId : String → Nat} {records : List ConsumerOwnership}
  {previous next first last : ConsumerOwnership} {index start finish : Nat}

section

variable (history : ConsumerHistory nameToId records)
include history

theorem ConsumerHistory.step
    (atIndex : records[index]? = some previous) (atNext : records[index + 1]? = some next)
    : validateTransition (some previous) (some next) = .ok ()
      ∧ next.validate nameToId = .ok () :=
  ⟨Histories.related_of_get history.follows atIndex atNext,
    history.valid next (List.mem_of_getElem? atNext)⟩

theorem ConsumerHistory.last_grows
    (within : start ≤ finish) (atStart : records[start]? = some first)
    (atFinish : records[finish]? = some last) {publication : ConsumerPublication}
    (found : first.publications.getLast? = some publication)
    : ∃ newer, last.publications.getLast? = some newer
        ∧ publication.generation ≤ newer.generation := by
  refine Histories.invariant (fun record => ∃ newer, record.publications.getLast? = some newer
    ∧ publication.generation ≤ newer.generation) within ?_ atStart ⟨_, found, Nat.le_refl _⟩
    atFinish
  rintro _ _ _ _ _ atIndex atNext ⟨_, found, grows⟩
  obtain ⟨follows, valid⟩ := history.step atIndex atNext
  obtain ⟨newer, newest, grows'⟩ :=
    last_carried (of_validateTransition follows).1 valid found
  exact ⟨newer, newest, grows.trans grows'⟩

/-- The generation of a receipt is past in every later record. -/
theorem ConsumerHistory.stays_past
    (within : start ≤ finish) (atStart : records[start]? = some first)
    (atFinish : records[finish]? = some last) {generation : Nat} {receipt : ConsumerReceipt}
    (found : first.receipts[generation]? = some receipt)
    : last.IsPast generation := by
  have valid := history.valid first (List.mem_of_getElem? atStart)
  obtain ⟨_, newest, later⟩ :=
    ((of_validate valid).2 generation receipt found).2
  obtain ⟨newer, newest, grows⟩ := history.last_grows within atStart atFinish newest
  exact ⟨newer, newest, later.trans_le grows⟩

end

/-- No record from one index to before another is fully withdrawn. -/
def ExposedBetween (records : List ConsumerOwnership) (start finish : Nat) : Prop :=
  ∀ index record, start ≤ index → index < finish → records[index]? = some record
    → record.phase ≠ .withdrawn

theorem ConsumerHistory.stays_clear (history : ConsumerHistory nameToId records)
    (within : start ≤ finish) (exposed : ExposedBetween records start finish)
    (atStart : records[start]? = some first) (atFinish : records[finish]? = some last)
    {withdrawal : EndpointWithdrawalInstruction} (clear : first.Clear withdrawal)
    : last.Clear withdrawal := by
  refine Histories.invariant (ConsumerOwnership.Clear withdrawal) within ?_ atStart clear atFinish
  intro index previous next lower upper atIndex atNext clear
  obtain ⟨follows, valid⟩ := history.step atIndex atNext
  exact clear_carried (of_validateTransition follows).1 valid
    (exposed index previous lower upper atIndex) clear

end

/-- In every history of accepted records: the last publication's generation never decreases; a
receipt disappears only after it was ready; a receipt that is ready was ready before, or became so
in a full withdrawal, or no publication exposes anything its withdrawal removed until the next full
withdrawal is over; and the catalogue it withdraws from stays replaced in every later record. -/
theorem confirmed_withdrawals_hold (nameToId : String → Nat) (records : List ConsumerOwnership)
    (history : ConsumerHistory nameToId records)
    : (∀ (start finish : Nat) (first last : ConsumerOwnership) (publication : ConsumerPublication),
        start ≤ finish
        → records[start]? = some first
        → records[finish]? = some last
        → first.publications.getLast? = some publication
        → ∃ newer, last.publications.getLast? = some newer
            ∧ publication.generation ≤ newer.generation)
      ∧ (∀ (index : Nat) (previous next : ConsumerOwnership) (generation : Nat)
          (receipt : ConsumerReceipt),
          records[index]? = some previous
          → records[index + 1]? = some next
          → previous.receipts[generation]? = some receipt
          → next.receipts[generation]? = none
          → receipt.phase = .ready)
      ∧ (∀ (index : Nat) (previous next : ConsumerOwnership) (generation : Nat)
          (ready : ConsumerReceipt),
          records[index]? = some previous
          → records[index + 1]? = some next
          → next.receipts[generation]? = some ready
          → ready.phase = .ready
          → ∃ before, previous.receipts[generation]? = some before
              ∧ before.withdrawal = ready.withdrawal
              ∧ (before.phase = .ready
                ∨ (previous.phase = .withdrawn ∧ next.phase = .withdrawn)
                ∨ ∀ finish last, index + 1 ≤ finish
                    → records[finish]? = some last
                    → ExposedBetween records (index + 1) finish
                    → ∀ publication ∈ last.publications, ¬ publication.Exposes ready.withdrawal))
      ∧ ∀ (start finish : Nat) (first last : ConsumerOwnership) (generation : Nat)
          (receipt : ConsumerReceipt), start ≤ finish
          → records[start]? = some first
          → records[finish]? = some last
          → first.receipts[generation]? = some receipt
          → last.IsPast generation := by
  refine ⟨fun start finish first last publication within atStart atFinish found =>
    history.last_grows within atStart atFinish found, ?_, ?_,
    fun start finish first last generation receipt within atStart atFinish found =>
      history.stays_past within atStart atFinish found⟩
  · intro index previous next generation receipt atIndex atNext found gone
    obtain ⟨follows, _⟩ := history.step atIndex atNext
    rcases (of_validateTransition follows).2.1 generation receipt found with
      ⟨_, ready⟩ | ⟨_, kept, _⟩
    · exact ready
    · rw [gone] at kept
      cases kept
  · intro index previous next generation ready atIndex atNext found confirmed
    obtain ⟨follows, valid⟩ := history.step atIndex atNext
    obtain ⟨_, receipts, new⟩ := of_validateTransition follows
    cases known : previous.receipts[generation]? with
    | none =>
      have waits := new generation ready found known
      rw [confirmed] at waits
      cases waits
    | some before =>
      cases phase : before.phase with
      | ready =>
        rcases receipts generation before known with ⟨gone, _⟩ | ⟨_, kept, same, _⟩
        · rw [found] at gone
          cases gone
        · rw [found] at kept
          cases kept
          exact ⟨before, rfl, same.symm, .inl phase⟩
      | pending =>
        obtain ⟨same, proven⟩ := clear_of_ready follows valid known phase
          found confirmed
        refine ⟨before, rfl, same.symm, .inr (proven.imp_right fun clear => ?_)⟩
        intro finish last within atFinish exposed
        exact (history.stays_clear within exposed atNext atFinish clear).hidden

-- Sample histories

def sampleService : CatalogService where
  vip := firstVip
  port := 8080
  backends := [⟨none, "producer", 0x0a000001, 30001, true⟩]

/-- A view of the service, and a newer one without it. -/
def samplePublications : List ConsumerPublication :=
  let services := (∅ : BTreeMap String CatalogService).insert "default__web" sampleService
  let entry : ServiceEntry := ⟨"web", "default", 0, firstVip, firstVip, 8080,
    sampleService.backends.map CatalogBackend.asInstance, none⟩
  [⟨1, { services }, [entry], []⟩, ⟨3, {}, [], []⟩]

def sampleRecord (phase : ConsumerPhase) (publications : List ConsumerPublication)
    (receipt : ReceiptPhase)
    : ConsumerOwnership where
  identity := ⟨"consumer", Vector.replicate 32 7⟩
  publications
  phase
  receipts := (∅ : BTreeMap Nat ConsumerReceipt).insert 2
    ⟨⟨2, (∅ : BTreeMap String ServiceWithdrawal).insert "default__web" ⟨sampleService, false⟩⟩,
      receipt⟩

/-- A full withdrawal confirms the receipt, and the next publication keeps the old view. -/
def withdrawnHistory : List ConsumerOwnership :=
  [sampleRecord .active samplePublications .pending,
   sampleRecord .withdrawing samplePublications .pending,
   sampleRecord .withdrawn samplePublications .pending,
   sampleRecord .withdrawn samplePublications .ready,
   sampleRecord .publishing samplePublications .ready]

/-- The old view is forgotten, which confirms the receipt. -/
def compactedHistory : List ConsumerOwnership :=
  [sampleRecord .active samplePublications .pending,
   sampleRecord .active (samplePublications.drop 1) .ready]

theorem withdrawnHistory_accepted : ConsumerHistory (fun _ => 0) withdrawnHistory := by
  constructor
  · simp only [withdrawnHistory, List.mem_cons, List.not_mem_nil, or_false]
    rintro record (rfl | rfl | rfl | rfl | rfl) <;> decide +kernel
  · refine .cons_cons ?_ (.cons_cons ?_ (.cons_cons ?_ (.cons_cons ?_ (.singleton _)))) <;>
      decide +kernel

theorem compactedHistory_accepted : ConsumerHistory (fun _ => 0) compactedHistory := by
  constructor
  · simp only [compactedHistory, List.mem_cons, List.not_mem_nil, or_false]
    rintro record (rfl | rfl) <;> decide +kernel
  · refine .cons_cons ?_ (.singleton _)
    decide +kernel

/-- After a full withdrawal a view is published again that exposes what was confirmed as
withdrawn. -/
theorem withdrawn_view_retained
    : ¬ ∀ (nameToId : String → Nat) (records : List ConsumerOwnership),
        ConsumerHistory nameToId records
        → ∀ (start finish : Nat) (first last : ConsumerOwnership) (generation : Nat)
            (receipt : ConsumerReceipt), start ≤ finish
            → records[start]? = some first
            → records[finish]? = some last
            → first.receipts[generation]? = some receipt
            → receipt.phase = .ready
            → ∀ publication ∈ last.publications, ¬ publication.Exposes receipt.withdrawal := by
  intro hidden
  have exposed := hidden (fun _ => 0) withdrawnHistory withdrawnHistory_accepted 3 4
    (sampleRecord .withdrawn samplePublications .ready)
    (sampleRecord .publishing samplePublications .ready) 2 _ (by decide) rfl rfl
    (get_insert_self _ _ _) rfl _ List.mem_cons_self
  refine exposed ⟨by decide, ⟨sampleService, false⟩, ?_, by decide +kernel⟩
  rw [mem_valueList]
  exact ⟨_, get_insert_self _ _ _⟩

/-- After the old view was forgotten nothing of the withdrawn service is exposed. -/
theorem compacted_view_hidden
    : ¬ ∃ publication ∈ samplePublications.drop 1,
        publication.Exposes ⟨2, (∅ : BTreeMap String ServiceWithdrawal).insert "default__web"
          ⟨sampleService, false⟩⟩ := by
  rintro ⟨_, listed, exposes⟩
  obtain ⟨_, found, _, proven⟩ :=
    (confirmed_withdrawals_hold (fun _ => 0) compactedHistory compactedHistory_accepted).2.2.1 0
      (sampleRecord .active samplePublications .pending)
      (sampleRecord .active (samplePublications.drop 1) .ready) 2 _ rfl rfl
      (get_insert_self _ _ _) rfl
  rw [show (sampleRecord .active samplePublications .pending).receipts[2]? = _ from
    get_insert_self _ _ _] at found
  cases found
  rcases proven with ready | ⟨withdrawn, _⟩ | hidden
  · cases ready
  · cases withdrawn
  · exact hidden 1 _ (by decide) rfl (fun index record lower upper => by omega) _ listed exposes

end Reliaburger
