import Prompta.DeliveryChanges

/-!
Deliveries are handed out at most once. A row is leased exactly while it is
running; a claimed row stays with its owner or reaches a terminal status, unless
the owner itself gives it back for a retry in time; terminal rows stay as they
are, except that a receipt may settle an unknown outcome. No order of the clock
is assumed: the guards of the single calls suffice.
-/
namespace Prompta.AtMostOnce

open Runs Tables Texts DisplayBlocks Schema ResponseStore DeliveryQueue Service

/-- A row has an owner exactly while it is running. -/
def Leased (d : Delivery) : Prop := d.status = .running ↔ d.leaseOwner ≠ ""

/-- The delivery is with its owner, or it is over. -/
def Held (owner : String) (d : Delivery) : Prop :=
  (d.status = .running ∧ d.leaseOwner = owner) ∨ d.status.isTerminal = true

/-- Workers claim under a name. -/
def Named (call : Call) : Prop :=
  match call.action with
  | .queue (.claimNext owner _ _ _ _) => owner ≠ ""
  | _ => True

/-- The call gives the delivery back for a retry by the owner. -/
def RetriedBy (call : Call) (sendId owner : String) : Prop :=
  ∃ retryAt retryAttempt error status,
    call.action = .queue (.retryClaim sendId owner retryAt retryAttempt error status)

theorem holds_iff {owner : String} {now : Time} {d : Delivery} :
    holds owner now d = true ↔
      d.status = .running ∧ d.leaseOwner = owner ∧ now < d.leaseExpiresAt := by
  simp only [holds, Bool.and_eq_true, decide_eq_true_eq, and_assoc]

theorem change_leased {s : Store} {call : Call} (hnamed : Named call) {d d' : Delivery}
    (h : DeliveryChange s call d d') (hd : Leased d) : Leased d' := by
  unfold Leased at hd ⊢
  cases h with
  | edited => exact hd
  | expired => simp [release]
  | confirmed hstatus =>
    have hfree : d.leaseOwner = "" := by
      by_contra howner
      have hrunning := hd.mpr howner
      rw [hstatus] at hrunning
      exact DeliveryStatus.noConfusion hrunning
    simp [confirm, hfree]
  | cancelled => simp [release]
  | leased owner leaseSeconds fireAndForget maxActive answers hcall =>
    have howner : owner ≠ "" := by
      unfold Named at hnamed
      rw [hcall] at hnamed
      exact hnamed
    simp [lease, howner]
  | renewed => exact hd
  | retried owner retryAt retryAttempt error status _ _ hstatus =>
    have hne : status ≠ .running := by
      rintro rfl
      exact Bool.noConfusion hstatus
    simp [retried, hne]
  | completed => simp [completed]
  | failed owner status error answers _ _ hstatus =>
    have hne : status ≠ .running := by
      rintro rfl
      exact Bool.noConfusion hstatus
    simp [release, hne]

theorem new_leased {s : Store} {call : Call} {d : Delivery} (h : NewDelivery s call d) :
    Leased d := by
  obtain ⟨record, _, _, rfl, _⟩ := h
  simp [Leased, queuedDelivery]

theorem step_leased (lib : Stdlib) (s : Store) (call : Call) (hnamed : Named call)
    (hs : ∀ d ∈ s.queue.rows, Leased d) : ∀ d ∈ (step lib s call).1.queue.rows, Leased d :=
  (step_deliveries s call lib).keeps (fun _ _ h hd => change_leased hnamed h hd)
    (fun _ h => new_leased h) hs

/-- In every reachable state exactly the running rows have an owner. -/
theorem run_leased (lib : Stdlib) (run : List Call) (hnamed : ∀ call ∈ run, Named call) :
    ∀ d ∈ (final (step lib) Store.empty run).queue.rows, Leased d := by
  refine final_invariant (step lib) Named (fun s => ∀ d ∈ s.queue.rows, Leased d) ?_ Store.empty
    ?_ run hnamed
  · intro s call hcall hs
    exact step_leased lib s call hcall hs
  · intro d hd
    exact absurd hd List.not_mem_nil

/-- A terminal row changes by a receipt only. -/
def Settled (s : Store) (call : Call) (status : DeliveryStatus) (d : Delivery) : Prop :=
  d.status = status ∨
    (status = .outcomeUnknown ∧ d.status = .succeeded ∧ reconciles call ∧
      hasReceipt s.chats d.sendId)

/-- A change of the row keeps what is settled. -/
theorem change_settled {s : Store} {call : Call} {status : DeliveryStatus}
    (hterminal : status.isTerminal = true) {d d' : Delivery} (h : DeliveryChange s call d d')
    (hd : Settled s call status d) : Settled s call status d' := by
  have hd_terminal : d.status.isTerminal = true := by
    rcases hd with heq | ⟨_, heq, _⟩
    · rw [heq, hterminal]
    · rw [heq]
      rfl
  have hwaiting : d.status.isWaiting ≠ true := by
    intro hw
    have hnot := DeliveryStatus.waiting_not_terminal hw
    rw [hd_terminal] at hnot
    exact Bool.noConfusion hnot
  have hrunning : d.status ≠ .running := by
    intro hr
    rw [hr] at hd_terminal
    exact Bool.noConfusion hd_terminal
  cases h with
  | edited _ _ _ _ h => exact absurd h hwaiting
  | expired h =>
    simp only [expiredLease, Bool.and_eq_true, decide_eq_true_eq] at h
    exact absurd h.1 hrunning
  | confirmed hstatus hcall hreceipt =>
    rcases hd with heq | ⟨_, heq, _⟩
    · exact Or.inr ⟨by rw [← heq, hstatus], rfl, hcall, hreceipt⟩
    · rw [hstatus] at heq
      exact DeliveryStatus.noConfusion heq
  | cancelled _ h => exact absurd h hwaiting
  | leased _ _ _ _ _ _ h =>
    simp only [claimable, Bool.and_eq_true] at h
    exact absurd h.1 hwaiting
  | renewed _ _ _ h => exact absurd (holds_iff.mp h).1 hrunning
  | retried _ _ _ _ _ _ h => exact absurd (holds_iff.mp h).1 hrunning
  | completed _ _ h => exact absurd (holds_iff.mp h).1 hrunning
  | failed _ _ _ _ _ h => exact absurd (holds_iff.mp h).1 hrunning

/-- One call keeps a terminal status, or settles it by a receipt. -/
theorem step_terminal (lib : Stdlib) (s : Store) (call : Call) (d : Delivery)
    (hd : d ∈ s.queue.rows) (hterminal : d.status.isTerminal = true) :
    ∃ d', (step lib s call).1.queue.lookup d.sendId = some d' ∧
      (d'.status = d.status ∨
        (d.status = .outcomeUnknown ∧ d'.status = .succeeded ∧ reconciles call ∧
          hasReceipt s.chats d.sendId)) := by
  obtain ⟨d', hd', hpath⟩ := (step_deliveries s call lib).lookup_some
    (fun _ _ h => h.sendId_eq) (Table.lookup_of_mem hd)
  have hstart : Settled s call d.status d := Or.inl rfl
  have hsettled : Settled s call d.status d' := by
    refine reflTransGen_keeps (P := Settled s call d.status) ?_ hpath hstart
    intro a b hab ha
    exact change_settled hterminal hab ha
  have hid : d'.sendId = d.sendId := Table.lookup_key hd'
  rw [Settled, hid] at hsettled
  exact ⟨d', hd', hsettled⟩

/-- A held row stays held, unless its own owner gives it back. -/
theorem change_held {s : Store} {call : Call} {sendId owner : String}
    (hretry : ¬ RetriedBy call sendId owner) {d d' : Delivery} (hid : d.sendId = sendId)
    (h : DeliveryChange s call d d') (hd : Held owner d) : Held owner d' := by
  rcases hd with ⟨hrunning, howner⟩ | hterminal
  · cases h with
    | edited _ _ _ _ h =>
      rw [hrunning] at h
      exact Bool.noConfusion h
    | expired => exact Or.inr rfl
    | confirmed => exact Or.inr rfl
    | cancelled => exact Or.inr rfl
    | leased _ _ _ _ _ _ h =>
      simp only [claimable, hrunning, Bool.and_eq_true] at h
      exact Bool.noConfusion h.1
    | renewed => exact Or.inl ⟨hrunning, howner⟩
    | retried owner' retryAt retryAttempt error status hcall h =>
      have hsame : owner' = owner := by rw [← (holds_iff.mp h).2.1, howner]
      subst hsame
      subst hid
      exact absurd ⟨retryAt, retryAttempt, error, status, hcall⟩ hretry
    | completed => exact Or.inr rfl
    | failed _ _ _ _ _ _ hstatus => exact Or.inr hstatus
  · have hsettled := change_settled hterminal h (Or.inl rfl)
    rcases hsettled with heq | ⟨_, heq, _⟩
    · exact Or.inr (by rw [heq, hterminal])
    · exact Or.inr (by rw [heq]; rfl)

/-- The row of the delivery is with the owner, or over. -/
def HeldIn (sendId owner : String) (s : Store) : Prop :=
  ∃ d, s.queue.lookup sendId = some d ∧ Held owner d

theorem step_held (lib : Stdlib) (s : Store) (call : Call) (sendId owner : String)
    (hretry : ¬ RetriedBy call sendId owner) (hs : HeldIn sendId owner s) :
    HeldIn sendId owner (step lib s call).1 := by
  obtain ⟨d, hd, hheld⟩ := hs
  obtain ⟨d', hd', hpath⟩ := (step_deliveries s call lib).lookup_some
    (fun _ _ h => h.sendId_eq) hd
  refine ⟨d', hd', ?_⟩
  have hstart : d.sendId = sendId ∧ Held owner d := ⟨Table.lookup_key hd, hheld⟩
  have hkeep : d'.sendId = sendId ∧ Held owner d' := by
    refine reflTransGen_keeps (P := fun d => d.sendId = sendId ∧ Held owner d) ?_ hpath hstart
    rintro a b hab ⟨hid, ha⟩
    exact ⟨by rw [hab.sendId_eq, hid], change_held hretry hid hab ha⟩
  exact hkeep.2

/-- An update that finds no row to rewrite leaves the store. -/
theorem updateDelivery_refused (s : Store) (sendId : String) (p : Delivery → Bool)
    (f : Delivery → Delivery) (hf : ∀ d, (f d).sendId = d.sendId)
    (h : s.queue.hits sendId p = false) : updateDelivery s sendId p f hf = (s, false) := by
  unfold updateDelivery
  rw [h, Table.updateAt_eq_self _ _ _ _ _ h]

/-- A retry without the lease is refused and changes nothing. -/
theorem retryClaim_refused (s : Store) (sendId owner : String) (retryAt : Time)
    (retryAttempt : ℤ) (error : String) (status : DeliveryStatus) (now : Time)
    (h : s.queue.hits sendId (holds owner now) = false) :
    (retryClaim s sendId owner retryAt retryAttempt error status now).1 = s ∧
      (retryClaim s sendId owner retryAt retryAttempt error status now).2 ≠ .ok true := by
  unfold retryClaim
  split
  · exact ⟨rfl, by simp⟩
  · rw [updateDelivery_refused _ _ _ _ _ h]
    exact ⟨rfl, by simp⟩

/-- Without the lease a failure changes nothing and is not confirmed. -/
theorem failClaim_refused (s : Store) (sendId owner : String) (status : DeliveryStatus)
    (error : String) (answers : Bool) (now : Time)
    (h : s.queue.hits sendId (holds owner now) = false) :
    (failClaim s sendId owner status error answers now).1 = s ∧
      (failClaim s sendId owner status error answers now).2 ≠ .ok true := by
  unfold failClaim
  split
  · exact ⟨rfl, by simp⟩
  · rw [updateDelivery_refused _ _ _ _ _ h]
    exact ⟨rfl, by simp⟩

/-- What a claim hands out is the row it leaves in the queue, leased. -/
theorem claimNext_some {s : Store} {owner : String} {leaseSeconds : Time} {fireAndForget : Bool}
    {maxActive : Option ℕ} {answers : String → Bool} {now : Time} {d : Delivery}
    (h : (claimNext s owner leaseSeconds fireAndForget maxActive answers now).2 = some d) :
    ∃ d₀, (expireRows s.queue now).1.lookup d.sendId = some d₀ ∧ claimable now d₀ = true ∧
      d = lease owner leaseSeconds now d₀ ∧
      (claimNext s owner leaseSeconds fireAndForget maxActive answers now).1.queue.lookup d.sendId =
        some d := by
  unfold claimNext at h ⊢
  dsimp only at h ⊢
  split at h
  · cases h
  · rename_i hcapacity
    rw [if_neg hcapacity]
    split at h
    · cases h
    · rename_i d₀ hnext
      cases h
      have hmem : d₀ ∈ ((expireRows s.queue now).1.rows.filter (claimable now)) := by
        rw [← List.mem_insertionSort claimOrder]
        exact List.mem_of_mem_head? hnext
      obtain ⟨hrow, hclaimable⟩ := List.mem_filter.mp hmem
      have hlookup := Table.lookup_of_mem hrow
      refine ⟨d₀, hlookup, hclaimable, rfl, ?_⟩
      change ((expireRows s.queue now).1.updateAt d₀.sendId (claimable now)
        (lease owner leaseSeconds now) fun _ => id rfl).lookup d₀.sendId = _
      rw [Table.lookup_updateAt_self, hlookup, Option.map_some, if_pos hclaimable]

def HandsOut (e : ServiceEvent) (sendId owner : String) : Prop :=
  ∃ leaseSeconds fireAndForget maxActive answers d,
    e.input.action = .queue (.claimNext owner leaseSeconds fireAndForget maxActive answers) ∧
    e.output = .delivery (some d) ∧ d.sendId = sendId

/-- The owner gives the delivery back, successfully and before its lease has run out. -/
def GivesBack (e : ServiceEvent) (sendId owner : String) : Prop :=
  RetriedBy e.input sendId owner ∧ e.output = .outcome (.ok true) ∧
    ∃ d, e.pre.queue.lookup sendId = some d ∧ holds owner e.input.now d = true

theorem held_after_claim (lib : Stdlib) (e : ServiceEvent) (sendId owner : String)
    (hstep : step lib e.pre e.input = (e.post, e.output)) (h : HandsOut e sendId owner) :
    HeldIn sendId owner e.post := by
  obtain ⟨leaseSeconds, fireAndForget, maxActive, answers, d, haction, houtput, rfl⟩ := h
  rw [step_queue haction] at hstep
  have hpost : (claimNext e.pre owner leaseSeconds fireAndForget maxActive answers
    e.input.now).1 = e.post := congrArg Prod.fst hstep
  have hout : Output.delivery (claimNext e.pre owner leaseSeconds fireAndForget maxActive answers
    e.input.now).2 = e.output := congrArg Prod.snd hstep
  rw [houtput, Output.delivery.injEq] at hout
  obtain ⟨d₀, _, _, hd, hlookup⟩ := claimNext_some hout
  refine ⟨d, by rw [← hpost, hlookup], Or.inl ⟨?_, ?_⟩⟩
  · rw [hd]
    rfl
  · rw [hd]
    rfl

/-- A row that is held is not handed out. -/
theorem not_held_before_claim (lib : Stdlib) (e : ServiceEvent) (sendId owner owner' : String)
    (hstep : step lib e.pre e.input = (e.post, e.output)) (h : HandsOut e sendId owner')
    (hheld : HeldIn sendId owner e.pre) : False := by
  obtain ⟨leaseSeconds, fireAndForget, maxActive, answers, d, haction, houtput, rfl⟩ := h
  rw [step_queue haction] at hstep
  have hout : Output.delivery (claimNext e.pre owner' leaseSeconds fireAndForget maxActive answers
    e.input.now).2 = e.output := congrArg Prod.snd hstep
  rw [houtput, Output.delivery.injEq] at hout
  obtain ⟨d₀, hlookup, hclaimable, _, _⟩ := claimNext_some hout
  obtain ⟨r, hr, hheld⟩ := hheld
  dsimp only [expireRows] at hlookup
  rw [Table.lookup_update, hr, Option.map_some, Option.some.injEq] at hlookup
  simp only [claimable, Bool.and_eq_true] at hclaimable
  have hwaiting : d₀.status.isWaiting = true := hclaimable.1
  rw [← hlookup] at hwaiting
  split at hwaiting
  · exact Bool.noConfusion hwaiting
  · rcases hheld with ⟨hrunning, _⟩ | hterminal
    · rw [hrunning] at hwaiting
      exact Bool.noConfusion hwaiting
    · rw [DeliveryStatus.waiting_not_terminal hwaiting] at hterminal
      exact Bool.noConfusion hterminal

/-- An event that is no retry of the owner's in time keeps the delivery held. -/
theorem event_held (lib : Stdlib) (b : ServiceEvent) (sendId owner : String)
    (hstep : step lib b.pre b.input = (b.post, b.output)) (hback : ¬ GivesBack b sendId owner)
    (h : HeldIn sendId owner b.pre) : HeldIn sendId owner b.post := by
  by_cases hretry : RetriedBy b.input sendId owner
  · obtain ⟨retryAt, retryAttempt, error, status, haction⟩ := id hretry
    rw [step_queue haction] at hstep
    have hsame : (retryClaim b.pre sendId owner retryAt retryAttempt error status
      b.input.now).1 = b.post := congrArg Prod.fst hstep
    have hout : Output.outcome (retryClaim b.pre sendId owner retryAt retryAttempt error status
      b.input.now).2 = b.output := congrArg Prod.snd hstep
    have hpost : b.post = b.pre := by
      by_cases hhits : b.pre.queue.hits sendId (holds owner b.input.now) = true
      · obtain ⟨d, hd, hholds⟩ := Table.hits_iff.mp hhits
        have hfailed : b.output ≠ .outcome (.ok true) := by
          intro hok
          exact hback ⟨hretry, hok, d, hd, hholds⟩
        rw [← hsame]
        rw [← hout] at hfailed
        unfold retryClaim at hfailed ⊢
        split
        · rfl
        · rename_i hstatus
          rw [if_neg hstatus] at hfailed
          exact absurd (by simp only [updateDelivery, hhits]) hfailed
      · rw [← hsame]
        exact (retryClaim_refused b.pre sendId owner retryAt retryAttempt error status b.input.now
          (Bool.eq_false_iff.mpr hhits)).1
    rw [hpost]
    exact h
  · have hkeep := step_held lib b.pre b.input sendId owner hretry h
    rw [hstep] at hkeep
    exact hkeep

/-- The delivery and the owner that a call on a lease names. -/
def leaseCall (call : Call) : Option (String × String) :=
  match call.action with
  | .queue (.renewLease sendId owner _) => some (sendId, owner)
  | .queue (.retryClaim sendId owner _ _ _ _) => some (sendId, owner)
  | .queue (.completeClaim sendId owner) => some (sendId, owner)
  | .queue (.failClaim sendId owner _ _ _) => some (sendId, owner)
  | _ => none

def isFailure : Output → Bool
  | .changed ok => !ok
  | .outcome (.ok ok) => !ok
  | .outcome (.error _) => true
  | _ => false

def Acknowledges (s : Store) (call : Call) (output : Output) (sendId owner : String) : Prop :=
  call.action = .queue (.completeClaim sendId owner) ∧ output = .changed true ∧
    ∃ d, s.queue.lookup sendId = some d ∧ d.status = .succeeded

/-- Without the lease a completion changes nothing; it is confirmed only of a delivery that has
succeeded. -/
theorem completeClaim_refused (s : Store) (sendId owner : String) (now : Time)
    (h : s.queue.hits sendId (holds owner now) = false) :
    (completeClaim s sendId owner now).1 = s ∧
      ((completeClaim s sendId owner now).2 = false ∨
        ∃ d, s.queue.lookup sendId = some d ∧ d.status = .succeeded) := by
  unfold completeClaim
  cases hd : s.queue.lookup sendId with
  | none => exact ⟨rfl, Or.inl rfl⟩
  | some d =>
    dsimp only
    cases haction : completionAction d owner with
    | acknowledge =>
      refine ⟨rfl, Or.inr ⟨d, rfl, ?_⟩⟩
      unfold completionAction at haction
      split_ifs at haction with hsucceeded
      exact hsucceeded
    | reject => exact ⟨rfl, Or.inl rfl⟩
    | complete =>
      dsimp only
      by_cases hexpired : d.leaseExpiresAt ≤ now
      · rw [if_pos hexpired]
        exact ⟨rfl, Or.inl rfl⟩
      · rw [if_neg hexpired, updateDelivery_refused _ _ _ _ _ h]
        exact ⟨rfl, Or.inl rfl⟩

/-- Without an unexpired lease a call on a lease changes nothing and fails, except that
a delivery that succeeded is acknowledged again. -/
theorem leaseCall_refused (lib : Stdlib) (s : Store) (call : Call) (sendId owner : String)
    (hcall : leaseCall call = some (sendId, owner))
    (h : s.queue.hits sendId (holds owner call.now) = false) :
    (step lib s call).1 = s ∧
      (isFailure (step lib s call).2 = true ∨
        Acknowledges s call (step lib s call).2 sendId owner) := by
  unfold leaseCall at hcall
  split at hcall
  · rename_i leaseSeconds haction
    cases hcall
    have hrefused : renewLease s sendId owner leaseSeconds call.now = (s, false) :=
      updateDelivery_refused _ _ _ _ _ h
    rw [step_queue haction]
    change (renewLease s sendId owner leaseSeconds call.now).1 = s ∧
      (isFailure (.changed (renewLease s sendId owner leaseSeconds call.now).2) = true ∨ _)
    rw [hrefused]
    exact ⟨rfl, Or.inl rfl⟩
  · rename_i retryAt retryAttempt error status haction
    cases hcall
    obtain ⟨hsame, hfails⟩ :=
      retryClaim_refused s sendId owner retryAt retryAttempt error status call.now h
    rw [step_queue haction]
    refine ⟨hsame, Or.inl ?_⟩
    change isFailure (.outcome
      (retryClaim s sendId owner retryAt retryAttempt error status call.now).2) = true
    cases hout : (retryClaim s sendId owner retryAt retryAttempt error status call.now).2 with
    | error e => rfl
    | ok ok =>
      cases ok with
      | false => rfl
      | true => exact absurd hout hfails
  · rename_i haction
    cases hcall
    obtain ⟨hsame, hfails⟩ := completeClaim_refused s sendId owner call.now h
    rw [step_queue haction]
    refine ⟨hsame, ?_⟩
    change isFailure (.changed (completeClaim s sendId owner call.now).2) = true ∨
      Acknowledges s call (.changed (completeClaim s sendId owner call.now).2) sendId owner
    cases hout : (completeClaim s sendId owner call.now).2 with
    | false => exact Or.inl rfl
    | true =>
      rcases hfails with hfalse | hsucceeded
      · rw [hout] at hfalse
        exact Bool.noConfusion hfalse
      · exact Or.inr ⟨haction, rfl, hsucceeded⟩
  · rename_i status error answers haction
    cases hcall
    have hrefused := failClaim_refused s sendId owner status error answers call.now h
    rw [step_queue haction]
    refine ⟨hrefused.1, Or.inl ?_⟩
    change isFailure (.outcome (failClaim s sendId owner status error answers call.now).2) = true
    cases hout : (failClaim s sendId owner status error answers call.now).2 with
    | error e => rfl
    | ok ok =>
      cases ok with
      | false => rfl
      | true => exact absurd hout hrefused.2
  · cases hcall

/-- At most once, over every run of the service. (a) Exactly the running rows have an
owner. (b) A delivery is handed out again only after its owner gave it back in time.
(c) A terminal row only changes from an unknown outcome to success, by a receipt.
(d) Calls on a lease that the owner does not hold change nothing and fail. -/
theorem delivery_at_most_once (lib : Stdlib) (run : List Call)
    (hnamed : ∀ call ∈ run, Named call) :
    (∀ d ∈ (final (step lib) Store.empty run).queue.rows,
      (d.status = .running ↔ d.leaseOwner ≠ "")) ∧
    (∀ before between after e e' sendId owner owner',
      events (step lib) Store.empty run = before ++ e :: (between ++ e' :: after) →
      HandsOut e sendId owner → HandsOut e' sendId owner' →
        ∃ b ∈ between, GivesBack b sendId owner) ∧
    (∀ e ∈ events (step lib) Store.empty run, ∀ d ∈ e.pre.queue.rows,
      d.status.isTerminal = true →
        ∃ d', e.post.queue.lookup d.sendId = some d' ∧
          (d'.status = d.status ∨
            (d.status = .outcomeUnknown ∧ d'.status = .succeeded ∧ reconciles e.input ∧
              hasReceipt e.pre.chats d.sendId))) ∧
    (∀ e ∈ events (step lib) Store.empty run, ∀ sendId owner,
      leaseCall e.input = some (sendId, owner) →
      (¬ ∃ d, e.pre.queue.lookup sendId = some d ∧ holds owner e.input.now d = true) →
        e.post = e.pre ∧
          (isFailure e.output = true ∨ Acknowledges e.pre e.input e.output sendId owner)) := by
  refine ⟨run_leased lib run hnamed, ?_, ?_, ?_⟩
  · intro before between after e e' sendId owner owner' hevents hfirst hsecond
    by_contra hnone
    push Not at hnone
    have hmem : ∀ b, b = e ∨ b ∈ between ∨ b = e' → b ∈ events (step lib) Store.empty run := by
      rintro b (rfl | hb | rfl) <;> rw [hevents] <;> simp [*]
    have hheld : HeldIn sendId owner e'.pre := by
      refine carried_between (step lib) (HeldIn sendId owner) Store.empty run before between after
        e e' hevents ?_ ?_
      · have hstep := event_step (step lib) Store.empty run e (hmem e (Or.inl rfl))
        exact held_after_claim lib e sendId owner hstep hfirst
      · intro b hb hpre
        have hstep := event_step (step lib) Store.empty run b (hmem b (Or.inr (Or.inl hb)))
        exact event_held lib b sendId owner hstep (hnone b hb) hpre
    have hstep' := event_step (step lib) Store.empty run e' (hmem e' (Or.inr (Or.inr rfl)))
    exact not_held_before_claim lib e' sendId owner owner' hstep' hsecond hheld
  · intro e he d hd hterminal
    have hstep := event_step (step lib) Store.empty run e he
    have h := step_terminal lib e.pre e.input d hd hterminal
    rw [hstep] at h
    exact h
  · intro e he sendId owner hcall hlease
    have hhits : e.pre.queue.hits sendId (holds owner e.input.now) = false := by
      rw [Bool.eq_false_iff, ne_eq, Table.hits_iff]
      exact hlease
    have h := leaseCall_refused lib e.pre e.input sendId owner hcall hhits
    rw [event_step (step lib) Store.empty run e he] at h
    exact h

/-- A delivery is claimed, given back and claimed by another worker. -/
def reclaimedRun : List Call :=
  [⟨.queue (.enqueue ⟨"manual-1", ['h', 'i'], "", [], false, false⟩ true), 10⟩,
    ⟨.queue (.claimNext "worker-1" 30 false (some 1) fun _ => true), 11⟩,
    ⟨.queue (.retryClaim "manual-1" "worker-1" 20 1 "busy" .retrying), 12⟩,
    ⟨.queue (.claimNext "worker-2" 30 false (some 1) fun _ => true), 21⟩]

theorem delivery_at_most_once_reclaimed :
    ((final (step plainLib) Store.empty reclaimedRun).queue.rows.map Delivery.leaseOwner =
      ["worker-2"]) ∧
    ∀ d ∈ (final (step plainLib) Store.empty reclaimedRun).queue.rows,
      (d.status = .running ↔ d.leaseOwner ≠ "") := by
  refine ⟨by decide +kernel, (delivery_at_most_once plainLib reclaimedRun ?_).1⟩
  simp [reclaimedRun, Named]

end Prompta.AtMostOnce
