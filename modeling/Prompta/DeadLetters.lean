import Prompta.AtMostOnce

/-!
The delivery worker. Every attempt that ends in a retry moves one saved counter, also the
attempts that were rate limited or found no browser. A rejection is compared with this
counter, so the attempts that should not count can bring a delivery close to its end.
-/
namespace Prompta.DeadLetters

open Runs Relation Tables Texts DisplayBlocks Schema ResponseStore ReplyStore DeliveryQueue Service

def maxRejectedAttempts : ℕ := 5

def retryBaseSeconds : Time := 2

def retryCapSeconds : Time := 300

/-- What the sender of a delivery ends with. -/
inductive AttemptOutcome
  | sent (leaseLost : Bool)
  | rateLimited (retryAfter : Time) (error : String)
  | browserUnavailable (error : String)
  | notAccepted (error : String)
  | outcomeUnknown (error : String)
  | unexpected (error : String)
  deriving DecidableEq

/-- A proven rejection or an unexpected failure. -/
def AttemptOutcome.isFailure : AttemptOutcome → Bool
  | .notAccepted _ => true
  | .unexpected _ => true
  | _ => false

/-- One attempt. `removed` is the error of a scheduled job that is no longer defined. -/
structure Attempt where
  removed : Option String := none
  outcome : AttemptOutcome
  answers : Bool := true
  now : Time
  deriving DecidableEq

def Attempt.fails (a : Attempt) : Bool := a.removed.isNone && a.outcome.isFailure

def retryDelay (attempt : ℕ) : Time :=
  min retryCapSeconds (retryBaseSeconds * 2 ^ min 12 (attempt - 1))

def retry (s : Store) (record : Delivery) (owner error : String) (delay : Time)
    (status : DeliveryStatus) (now : Time) : Store :=
  (retryClaim s record.sendId owner (now + max 0 delay) (record.retryAttempt + 1) error
    status now).1

/-- A rejection or an unexpected failure ends the delivery at the last attempt. -/
def rejectOrRetry (s : Store) (record : Delivery) (owner error : String) (answers : Bool)
    (now : Time) : Store :=
  let attempt := record.retryAttempt + 1
  if maxRejectedAttempts ≤ attempt then
    (failClaim s record.sendId owner .deadLettered error answers now).1
  else retry s record owner error (retryDelay attempt) .retrying now

/-- `_deliver_one`: the receipt of the attempt in the queue. -/
def deliverOne (s : Store) (owner : String) (record : Delivery) (a : Attempt) : Store :=
  match a.removed with
  | some error => (failClaim s record.sendId owner .cancelled error a.answers a.now).1
  | none =>
    match a.outcome with
    | .rateLimited retryAfter error =>
      retry s record owner error (max (retryDelay (record.retryAttempt + 1)) retryAfter)
        .rateLimited
        a.now
    | .browserUnavailable error =>
      retry s record owner error (retryDelay (record.retryAttempt + 1)) .retrying a.now
    | .notAccepted error => rejectOrRetry s record owner error a.answers a.now
    | .outcomeUnknown error =>
      (failClaim s record.sendId owner .outcomeUnknown error a.answers a.now).1
    | .unexpected error => rejectOrRetry s record owner error a.answers a.now
    | .sent true => s
    | .sent false => (completeClaim s record.sendId owner a.now).1

/-- A delivery that a worker has in hand, as it was claimed. -/
structure Held where
  owner : String
  record : Delivery
  deriving DecidableEq

structure WorkerState where
  store : Store
  held : List Held

def WorkerState.empty : WorkerState := ⟨Store.empty, []⟩

/-- The calls that only the delivery worker makes. It renews its leases beside the attempt. -/
def isWorkerCall (call : Call) : Bool :=
  match call.action with
  | .queue (.claimNext _ _ _ _ _) => true
  | .queue (.retryClaim _ _ _ _ _ _) => true
  | .queue (.completeClaim _ _) => true
  | .queue (.failClaim _ _ _ _ _) => true
  | _ => false

inductive WorkerCall
  | claim (owner : String) (leaseSeconds : Time) (fireAndForget : Bool) (maxActive : Option ℕ)
      (answers : String → Bool) (now : Time)
  | attempt (held : Held) (attempt : Attempt)
  | drop (held : Held)
  | service (call : Call) (hcall : isWorkerCall call = false)

def workerStep (lib : Stdlib) (s : WorkerState) : WorkerCall → WorkerState × Unit
  | .claim owner leaseSeconds fireAndForget maxActive answers now =>
    let outcome := claimNext s.store owner leaseSeconds fireAndForget maxActive answers now
    (⟨outcome.1, (outcome.2.map (Held.mk owner)).toList ++ s.held⟩, ())
  | .attempt held a =>
    if held ∈ s.held then
      (⟨deliverOne s.store held.owner held.record a, s.held.erase held⟩, ())
    else (s, ())
  | .drop held => ({ s with held := s.held.erase held }, ())
  | .service call _ => ({ s with store := (step lib s.store call).1 }, ())

abbrev WorkerEvent := Event WorkerState WorkerCall Unit

/-- An attempt at the delivery that failed. -/
def failsAt (sendId : String) (e : WorkerEvent) : Bool :=
  match e.input with
  | .attempt held a =>
    decide (held ∈ e.pre.held) && decide (held.record.sendId = sendId) && a.fails
  | _ => false

def failures (lib : Stdlib) (sendId : String) (run : List WorkerCall) : ℕ :=
  (events (workerStep lib) WorkerState.empty run).countP (failsAt sendId)

def EarnsDeadLetters (lib : Stdlib) (run : List WorkerCall) : Prop :=
  ∀ earlier later sendId d, run = earlier ++ later →
    (final (workerStep lib) WorkerState.empty earlier).store.queue.lookup sendId = some d →
      d.status = .deadLettered → maxRejectedAttempts ≤ failures lib sendId earlier

/-- A failure that finds the counter at its last attempt comes after as many failures. -/
def CountsFailures (lib : Stdlib) (run : List WorkerCall) : Prop :=
  ∀ earlier held a later d, run = earlier ++ .attempt held a :: later →
    held ∈ (final (workerStep lib) WorkerState.empty earlier).held → a.fails = true →
    (final (workerStep lib) WorkerState.empty earlier).store.queue.lookup held.record.sendId =
      some d → holds held.owner a.now d = true → maxRejectedAttempts ≤ d.retryAttempt + 1 →
        maxRejectedAttempts ≤ failures lib held.record.sendId earlier + 1

section Receipts

variable (lib : Stdlib) (s : Store) (owner : String) (record : Delivery) (a : Attempt)

/-- The receipts that an attempt can write. -/
inductive Receipt : QueueCall → Prop
  | retried (retryAt : Time) (error : String) (status : DeliveryStatus) :
      Receipt (.retryClaim record.sendId owner retryAt (record.retryAttempt + 1) error status)
  | completed : Receipt (.completeClaim record.sendId owner)
  | failed (status : DeliveryStatus) (error : String)
      (hstatus : status = .deadLettered →
        a.fails = true ∧ maxRejectedAttempts ≤ record.retryAttempt + 1) :
      Receipt (.failClaim record.sendId owner status error a.answers)

theorem deliverOne_receipt :
    deliverOne s owner record a = s ∨ ∃ q, Receipt owner record a q ∧
      deliverOne s owner record a = (step lib s ⟨.queue q, a.now⟩).1 := by
  unfold deliverOne
  cases hremoved : a.removed with
  | some error => exact Or.inr ⟨_, Receipt.failed .cancelled error (fun h => nomatch h), rfl⟩
  | none =>
    have hreject : ∀ error, a.fails = true →
        ∃ q, Receipt owner record a q ∧ rejectOrRetry s record owner error a.answers a.now =
          (step lib s ⟨.queue q, a.now⟩).1 := by
      intro error hfails
      unfold rejectOrRetry
      dsimp only
      split
      · rename_i hlast
        exact ⟨_, Receipt.failed .deadLettered error fun _ => ⟨hfails, hlast⟩, rfl⟩
      · exact ⟨_, Receipt.retried _ error .retrying, rfl⟩
    dsimp only
    cases houtcome : a.outcome with
    | sent leaseLost =>
      cases leaseLost with
      | true => exact Or.inl rfl
      | false => exact Or.inr ⟨_, Receipt.completed, rfl⟩
    | rateLimited retryAfter error =>
      exact Or.inr ⟨_, Receipt.retried _ error .rateLimited, rfl⟩
    | browserUnavailable error => exact Or.inr ⟨_, Receipt.retried _ error .retrying, rfl⟩
    | notAccepted error =>
      exact Or.inr (hreject error (by rw [Attempt.fails, hremoved, houtcome]; rfl))
    | outcomeUnknown error =>
      exact Or.inr ⟨_, Receipt.failed .outcomeUnknown error (fun h => nomatch h), rfl⟩
    | unexpected error =>
      exact Or.inr (hreject error (by rw [Attempt.fails, hremoved, houtcome]; rfl))

/-- In the queue a final failure only releases the row. -/
theorem failClaim_dead (k error : String) (answers : Bool) (now : Time) :
    (failClaim s k owner .deadLettered error answers now).1.queue =
      s.queue.updateAt k (holds owner now) (release .deadLettered error now) (fun _ => id rfl) := by
  unfold failClaim
  rw [if_neg (by decide)]
  dsimp only
  split
  · rfl
  · rfl

/-- The last failure makes the dead letter. -/
theorem deliverOne_dead {d : Delivery} (hfails : a.fails = true)
    (hlast : maxRejectedAttempts ≤ record.retryAttempt + 1)
    (hd : s.queue.lookup record.sendId = some d) (hholds : holds owner a.now d = true) :
    ∃ d', (deliverOne s owner record a).queue.lookup record.sendId = some d' ∧
      d'.status = .deadLettered := by
  rw [Attempt.fails, Bool.and_eq_true, Option.isNone_iff_eq_none] at hfails
  obtain ⟨hremoved, hfailure⟩ := hfails
  have hreject : ∀ error, ∃ d',
      (rejectOrRetry s record owner error a.answers a.now).queue.lookup record.sendId = some d' ∧
        d'.status = .deadLettered := by
    intro error
    refine ⟨release .deadLettered error a.now d, ?_, rfl⟩
    unfold rejectOrRetry
    dsimp only
    rw [if_pos hlast, failClaim_dead, Table.lookup_updateAt_self, hd, Option.map_some,
      if_pos hholds]
  unfold deliverOne
  rw [hremoved]
  cases houtcome : a.outcome with
  | notAccepted error => exact hreject error
  | unexpected error => exact hreject error
  | _ =>
    rw [houtcome] at hfailure
    exact Bool.noConfusion hfailure

end Receipts

section Rows

variable (lib : Stdlib) (s : Store) (call : Call)

/-- The row of a claim: still leased with the counter of the claim, or final. -/
def LeasedRow (counter : ℕ) (d : Delivery) : Prop :=
  d.status.isTerminal = true ∨ (d.status = .running ∧ d.retryAttempt = counter)

theorem LeasedRow.not_waiting {counter : ℕ} {d : Delivery} (h : LeasedRow counter d) :
    d.status.isWaiting = false := by
  rcases h with hterminal | ⟨hrunning, _⟩
  · by_contra hwaiting
    rw [Bool.not_eq_false] at hwaiting
    rw [DeliveryStatus.waiting_not_terminal hwaiting] at hterminal
    exact Bool.noConfusion hterminal
  · rw [hrunning]
    rfl

variable {s call}

/-- Only a retry raises the counter of a leased row. -/
theorem change_leasedRow {counter : ℕ} {d d' : Delivery} (h : DeliveryChange s call d d')
    (hretry : ∀ owner retryAt retryAttempt error status,
      call.action ≠ .queue (.retryClaim d.sendId owner retryAt retryAttempt error status))
    (hd : LeasedRow counter d) : LeasedRow counter d' := by
  have hwaiting : d.status.isWaiting ≠ true := by
    rw [hd.not_waiting]
    exact Bool.false_ne_true
  cases h with
  | edited _ _ _ _ h => exact absurd h hwaiting
  | expired => exact Or.inl rfl
  | confirmed => exact Or.inl rfl
  | cancelled _ h => exact absurd h hwaiting
  | leased _ _ _ _ _ _ h =>
    simp only [claimable, Bool.and_eq_true] at h
    exact absurd h.1 hwaiting
  | renewed => exact hd
  | retried owner retryAt retryAttempt error status hcall =>
    exact absurd hcall (hretry owner retryAt retryAttempt error status)
  | completed => exact Or.inl rfl
  | failed owner status error answers _ _ hterminal => exact Or.inl hterminal

/-- The row of a claim through one call of anybody else. -/
theorem leasedRow_step {sendId : String} {counter : ℕ}
    (hretry : ∀ owner retryAt retryAttempt error status,
      call.action ≠ .queue (.retryClaim sendId owner retryAt retryAttempt error status))
    (h : ∃ d, s.queue.lookup sendId = some d ∧ LeasedRow counter d) :
    ∃ d, (step lib s call).1.queue.lookup sendId = some d ∧ LeasedRow counter d := by
  obtain ⟨d, hd, hrow⟩ := h
  obtain ⟨d', hd', hpath⟩ := (step_deliveries s call lib).lookup_some (fun _ _ h => h.sendId_eq) hd
  have hkept : d'.sendId = sendId ∧ LeasedRow counter d' := by
    refine reflTransGen_keeps (P := fun r => r.sendId = sendId ∧ LeasedRow counter r) ?_ hpath
      ⟨(Table.lookup_key hd : d.sendId = sendId), hrow⟩
    rintro a b hab ⟨hid, ha⟩
    refine ⟨hab.sendId_eq.trans hid, change_leasedRow hab ?_ ha⟩
    rw [hid]
    exact hretry
  exact ⟨d', hd', hkept.2⟩

/-- The row is no dead letter. -/
def Undead (s : Store) (sendId : String) : Prop :=
  ∀ d, s.queue.lookup sendId = some d → d.status ≠ .deadLettered

/-- Only a final failure of its owner makes a delivery a dead letter. -/
theorem change_undead {d d' : Delivery} (h : DeliveryChange s call d d')
    (hfail : ∀ owner error answers,
      call.action ≠ .queue (.failClaim d.sendId owner .deadLettered error answers))
    (hd : d.status ≠ .deadLettered) : d'.status ≠ .deadLettered := by
  cases h with
  | edited => exact hd
  | renewed => exact hd
  | retried owner retryAt retryAttempt error status _ _ hstatus =>
    change status ≠ .deadLettered
    rintro rfl
    exact nomatch hstatus
  | failed owner status error answers hcall =>
    change status ≠ .deadLettered
    rintro rfl
    exact hfail owner error answers hcall
  | _ => exact fun h => nomatch h

variable (call) in
/-- Only a failed claim makes a dead letter. -/
theorem undead_step {sendId : String}
    (hfail : ∀ owner error answers,
      call.action ≠ .queue (.failClaim sendId owner .deadLettered error answers))
    (h : Undead s sendId) : Undead (step lib s call).1 sendId := by
  intro d' hd'
  have hkeeps : ∀ a b, DeliveryChange s call a b → a.sendId = sendId ∧ a.status ≠ .deadLettered →
      b.sendId = sendId ∧ b.status ≠ .deadLettered := by
    rintro a b hab ⟨hid, ha⟩
    refine ⟨hab.sendId_eq.trans hid, change_undead hab ?_ ha⟩
    rw [hid]
    exact hfail
  rcases (step_deliveries s call lib).lookup_old (fun _ _ h => h.sendId_eq) hd' with
    ⟨d, hd, hpath⟩ | ⟨_, d, hnew, hkey, hpath⟩
  · have hid : d.sendId = sendId := Table.lookup_key hd
    exact (reflTransGen_keeps (P := fun r => r.sendId = sendId ∧ r.status ≠ .deadLettered) hkeeps
      hpath ⟨hid, h d hd⟩).2
  · obtain ⟨record, answers, _, hrow, _⟩ := hnew
    refine (reflTransGen_keeps (P := fun r => r.sendId = sendId ∧ r.status ≠ .deadLettered)
      hkeeps hpath ⟨hkey, ?_⟩).2
    rw [hrow]
    exact fun h => nomatch h

end Rows

section Claims

variable (lib : Stdlib)

/-- What holds of the deliveries in hand. -/
structure Leased (s : WorkerState) : Prop where
  nodup : (s.held.map fun h => h.record.sendId).Nodup
  rows : ∀ h ∈ s.held, ∃ d, s.store.queue.lookup h.record.sendId = some d ∧
    LeasedRow h.record.retryAttempt d

theorem leased_sublist {s : WorkerState} {held : List Held} (hsub : held.Sublist s.held)
    (h : Leased s) : Leased { s with held } :=
  ⟨h.nodup.sublist (hsub.map _), fun c hc => h.rows c (hsub.subset hc)⟩

/-- A call beside the worker keeps the rows of its claims, unless it retries one. -/
theorem leased_store {s : WorkerState} (call : Call) (h : Leased s)
    (hretry : ∀ c ∈ s.held, ∀ owner retryAt retryAttempt error status,
      call.action ≠ .queue (.retryClaim c.record.sendId owner retryAt retryAttempt error status)) :
    Leased { s with store := (step lib s.store call).1 } :=
  ⟨h.nodup, fun c hc => leasedRow_step lib (hretry c hc) (h.rows c hc)⟩

/-- A new claim starts with the counter of its row. -/
theorem leased_claim {s : WorkerState} (h : Leased s) (owner : String) (leaseSeconds : Time)
    (fireAndForget : Bool) (maxActive : Option ℕ) (answers : String → Bool) (now : Time) :
    Leased (workerStep lib s
      (.claim owner leaseSeconds fireAndForget maxActive answers now)).1 := by
  have hstore : Leased { s with store :=
      (claimNext s.store owner leaseSeconds fireAndForget maxActive answers now).1 } :=
    leased_store lib ⟨.queue (.claimNext owner leaseSeconds fireAndForget maxActive answers), now⟩ h
      fun _ _ _ _ _ _ _ => fun hcall => nomatch hcall
  dsimp only [workerStep]
  cases hclaim : (claimNext s.store owner leaseSeconds fireAndForget maxActive answers now).2 with
  | none => exact hstore
  | some d =>
    obtain ⟨d₀, hd₀, hclaimable, hlease, hrow⟩ := AtMostOnce.claimNext_some hclaim
    simp only [claimable, Bool.and_eq_true] at hclaimable
    have hfree : ∀ c ∈ s.held, c.record.sendId ≠ d.sendId := by
      intro c hc hsame
      obtain ⟨r, hr, hleased⟩ := h.rows c hc
      have hexpired : ∃ r', (expireRows s.store.queue now).1.lookup c.record.sendId = some r' ∧
          LeasedRow c.record.retryAttempt r' := by
        unfold expireRows
        dsimp only
        rw [Table.lookup_update, hr]
        by_cases hlapsed : expiredLease now r = true
        · exact ⟨_, by rw [Option.map_some, if_pos hlapsed], Or.inl rfl⟩
        · exact ⟨_, by rw [Option.map_some, if_neg hlapsed], hleased⟩
      obtain ⟨r', hr', hleased'⟩ := hexpired
      rw [hsame, hd₀] at hr'
      obtain rfl := Option.some.inj hr'
      rw [hleased'.not_waiting] at hclaimable
      exact Bool.noConfusion hclaimable.1
    constructor
    · change ((Held.mk owner d).record.sendId :: s.held.map fun c => c.record.sendId).Nodup
      refine List.nodup_cons.mpr ⟨?_, h.nodup⟩
      intro hmem
      obtain ⟨c, hc, hsame⟩ := List.mem_map.mp hmem
      exact hfree c hc hsame
    · intro c hc
      rcases List.mem_cons.mp hc with rfl | hold
      · refine ⟨d, hrow, Or.inr ⟨?_, rfl⟩⟩
        rw [hlease]
        rfl
      · exact hstore.rows c hold

theorem leased_step (s : WorkerState) (call : WorkerCall) (h : Leased s) :
    Leased (workerStep lib s call).1 := by
  cases call with
  | claim owner leaseSeconds fireAndForget maxActive answers now =>
    exact leased_claim lib h owner leaseSeconds fireAndForget maxActive answers now
  | attempt held a =>
    dsimp only [workerStep]
    split
    · rename_i hmem
      have hrest := leased_sublist (List.erase_sublist (a := held) (l := s.held)) h
      rcases deliverOne_receipt lib s.store held.owner held.record a with hsame | ⟨q, hq, hstep⟩
      · rw [hsame]
        exact hrest
      · rw [hstep]
        refine leased_store lib _ hrest ?_
        intro c hc owner retryAt retryAttempt error status hcall
        -- the others have other deliveries
        have hne : c.record.sendId ≠ held.record.sendId := by
          have hnodup := h.nodup
          rw [(List.perm_cons_erase hmem).map _ |>.nodup_iff] at hnodup
          intro hsame
          have hmap := List.mem_map_of_mem (f := fun c : Held => c.record.sendId) hc
          rw [hsame] at hmap
          exact (List.nodup_cons.mp hnodup).1 hmap
        cases hq with
        | retried =>
          injection hcall with hcall
          injection hcall with hid
          exact hne hid.symm
        | completed => cases hcall
        | failed => cases hcall
    · exact h
  | drop held => exact leased_sublist List.erase_sublist h
  | service call hcall =>
    refine leased_store lib _ h ?_
    intro c _ owner retryAt retryAttempt error status haction
    rw [isWorkerCall, haction] at hcall
    exact Bool.noConfusion hcall

theorem leased_run (run : List WorkerCall) :
    Leased (final (workerStep lib) WorkerState.empty run) := by
  refine final_invariant (workerStep lib) (fun _ => True) Leased (fun s call _ h =>
    leased_step lib s call h) WorkerState.empty ?_ run fun _ _ => True.intro
  exact ⟨List.nodup_nil, fun h hh => nomatch hh⟩

/-- A delivery that is no dead letter becomes one only by a failure at the last attempt. -/
theorem step_dead (s : WorkerState) (call : WorkerCall) {sendId : String} (hleased : Leased s)
    (hundead : Undead s.store sendId) :
    Undead (workerStep lib s call).1.store sendId ∨ ∃ held a d, call = .attempt held a ∧
      held ∈ s.held ∧ held.record.sendId = sendId ∧ a.fails = true ∧
        s.store.queue.lookup sendId = some d ∧ holds held.owner a.now d = true ∧
          maxRejectedAttempts ≤ d.retryAttempt + 1 := by
  cases call with
  | claim owner leaseSeconds fireAndForget maxActive answers now =>
    exact Or.inl (undead_step lib ⟨.queue (.claimNext owner leaseSeconds fireAndForget
      maxActive answers), now⟩ (fun _ _ _ h => by cases h) hundead)
  | drop held => exact Or.inl hundead
  | service c hcall =>
    refine Or.inl (undead_step lib _ ?_ hundead)
    intro owner error answers haction
    rw [isWorkerCall, haction] at hcall
    exact Bool.noConfusion hcall
  | attempt held a =>
    dsimp only [workerStep]
    split
    · rename_i hmem
      rcases deliverOne_receipt lib s.store held.owner held.record a with hsame | ⟨q, hq, hstep⟩
      · rw [hsame]
        exact Or.inl hundead
      · cases hq with
        | retried =>
          rw [hstep]
          exact Or.inl (undead_step lib _ (fun _ _ _ h => by cases h) hundead)
        | completed =>
          rw [hstep]
          exact Or.inl (undead_step lib _ (fun _ _ _ h => by cases h) hundead)
        | failed status error hstatus =>
          by_cases hdead : status = .deadLettered ∧ held.record.sendId = sendId
          · obtain ⟨rfl, rfl⟩ := hdead
            obtain ⟨hfails, hlast⟩ := hstatus rfl
            obtain ⟨d, hd, hrow⟩ := hleased.rows held hmem
            by_cases hholds : holds held.owner a.now d = true
            · refine Or.inr ⟨held, a, d, rfl, hmem, rfl, hfails, hd, hholds, ?_⟩
              simp only [holds, Bool.and_eq_true, decide_eq_true_eq] at hholds
              rcases hrow with hterminal | ⟨_, hcounter⟩
              · rw [hholds.1.1] at hterminal
                exact Bool.noConfusion hterminal
              · rw [hcounter]
                exact hlast
            · left
              intro d' hd'
              have hqueue : (deliverOne s.store held.owner held.record a).queue =
                  s.store.queue.updateAt held.record.sendId (holds held.owner a.now)
                    (release .deadLettered error a.now) (fun _ => id rfl) := by
                rw [hstep]
                exact failClaim_dead s.store held.owner held.record.sendId error a.answers a.now
              dsimp only at hd'
              rw [hqueue, Table.lookup_updateAt_self, hd, Option.map_some, if_neg hholds] at hd'
              rw [← Option.some.inj hd']
              exact hundead d hd
          · rw [hstep]
            refine Or.inl (undead_step lib _ ?_ hundead)
            intro owner error' answers h
            injection h with h
            injection h with hid _ hthis
            exact hdead ⟨hthis, hid⟩
    · exact Or.inl hundead

end Claims

section Run

variable (lib : Stdlib)

/-- The failures of a longer run. -/
theorem failures_snoc (sendId : String) (run : List WorkerCall) (call : WorkerCall) :
    failures lib sendId (run ++ [call]) = failures lib sendId run +
      if failsAt sendId ⟨final (workerStep lib) WorkerState.empty run, call, (),
        (workerStep lib (final (workerStep lib) WorkerState.empty run) call).1⟩ = true then 1
        else 0 := by
  unfold failures
  rw [events_append, List.countP_append, events, List.countP_cons, events, List.countP_nil,
    Nat.zero_add]

/-- Every dead letter has failed five times exactly when no failure finds the counter at its
last attempt before it has. -/
theorem dead_letters_earned_iff (run : List WorkerCall) :
    EarnsDeadLetters lib run ↔ CountsFailures lib run := by
  constructor
  · intro h earlier held a later d hrun hmem hfails hd hholds hlast
    obtain ⟨d₁, hd₁, hrow⟩ := (leased_run lib earlier).rows held hmem
    rw [hd] at hd₁
    obtain rfl := Option.some.inj hd₁
    have hcounter : d.retryAttempt = held.record.retryAttempt := by
      simp only [holds, Bool.and_eq_true, decide_eq_true_eq] at hholds
      rcases hrow with hterminal | ⟨_, hcounter⟩
      · rw [hholds.1.1] at hterminal
        exact Bool.noConfusion hterminal
      · exact hcounter
    rw [hcounter] at hlast
    obtain ⟨d', hd', hdead⟩ := deliverOne_dead _ held.owner held.record a hfails hlast hd hholds
    have hpost : (final (workerStep lib) WorkerState.empty (earlier ++ [.attempt held a])).store =
        deliverOne (final (workerStep lib) WorkerState.empty earlier).store held.owner
          held.record a := by
      rw [final_append]
      change (workerStep lib _ _).1.store = _
      dsimp only [workerStep]
      rw [if_pos hmem]
    have hearned := h (earlier ++ [.attempt held a]) later held.record.sendId d'
      (by rw [hrun, List.append_assoc]; rfl) (by rw [hpost]; exact hd') hdead
    rw [failures_snoc] at hearned
    split at hearned
    · exact hearned
    · omega
  · intro h earlier
    induction earlier using List.reverseRecOn with
    | nil =>
      intro later sendId d _ hd
      cases hd
    | append_singleton earlier call ih =>
      intro later sendId d hrun hd hdead
      have hprefix : run = earlier ++ call :: later := by
        rw [hrun, List.append_assoc]
        rfl
      rw [failures_snoc]
      by_cases hbefore : Undead (final (workerStep lib) WorkerState.empty earlier).store sendId
      · rw [final_append] at hd
        rcases step_dead lib _ call (leased_run lib earlier) hbefore with
          hafter | ⟨held, a, r, rfl, hmem, rfl, hfails, hr, hholds, hlast⟩
        · exact absurd hdead (hafter d hd)
        · have hcounted := h earlier held a later r hprefix hmem hfails hr hholds hlast
          rw [if_pos]
          · exact hcounted
          · simp only [failsAt, Bool.and_eq_true, decide_eq_true_eq]
            exact ⟨⟨hmem, trivial⟩, hfails⟩
      · unfold Undead at hbefore
        push Not at hbefore
        obtain ⟨r, hr, hrdead⟩ := hbefore
        have := ih (call :: later) sendId r hprefix hr hrdead
        omega

end Run

/-- A claim by one worker and the attempt that follows it, every twenty minutes. -/
def attempts (lib : Stdlib) (s : WorkerState) (now : ℕ) :
    List AttemptOutcome → WorkerState × List WorkerCall
  | [] => (s, [])
  | outcome :: rest =>
    let claim : WorkerCall := .claim "worker" 300 false none (fun _ => true) now
    let claimed := (workerStep lib s claim).1
    match claimed.held with
    | [] => (claimed, [claim])
    | held :: _ =>
      let attempt : WorkerCall := .attempt held { outcome, now := now + 1 }
      let next := attempts lib (workerStep lib claimed attempt).1 (now + 1200) rest
      (next.1, claim :: attempt :: next.2)

def helloQueued : WorkerCall :=
  .service ⟨.queue (.enqueue ⟨"manual-1", ['h', 'i'], "manual:1", [], false, false⟩ true), 10⟩ rfl

def limitedThenRejected : List WorkerCall :=
  helloQueued :: (attempts plainLib (workerStep plainLib WorkerState.empty helloQueued).1 100
    [.rateLimited 0 "429", .rateLimited 0 "429", .rateLimited 0 "429", .rateLimited 0 "429",
      .notAccepted "rejected"]).2

theorem rejected_once_dead_lettered : ¬ EarnsDeadLetters plainLib limitedThenRejected := by
  intro h
  have hdead : ((final (workerStep plainLib) WorkerState.empty
      limitedThenRejected).store.queue.lookup
      "manual-1").any (fun d => decide (d.status = .deadLettered)) = true := by decide +kernel
  obtain ⟨d, hd, hstatus⟩ := (Option.any_eq_true _ _).mp hdead
  have hearned := h limitedThenRejected [] "manual-1" d (List.append_nil _).symm hd
    (of_decide_eq_true hstatus)
  have honce : failures plainLib "manual-1" limitedThenRejected = 1 := by decide +kernel
  rw [honce] at hearned
  exact absurd hearned (by decide)

end Prompta.DeadLetters
