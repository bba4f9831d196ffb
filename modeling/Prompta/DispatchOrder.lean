import Prompta.DeliveryChanges
import Prompta.JsonValues
import Prompta.SortedSelections

/-!
The order of the waiting deliveries. Four queries sort them: the claim, the list of everything
that waits, the scheduled ones and the ones that are sent once. Their orders agree, since the
sequence numbers of the rows differ, and a bump puts a waiting row ahead of all rows there are.
-/
namespace Prompta.DispatchOrder

open Tables Texts DisplayBlocks Schema DeliveryQueue Service Runs SortedSelections

section Queries

/-- `client_id LIKE 'scheduled:%'` -/
def isScheduled (d : Delivery) : Bool := startsWith (lower d.clientId) "scheduled:"

/-- `client_id LIKE 'manual:%' OR one_time` -/
def isOnce (d : Delivery) : Bool := startsWith (lower d.clientId) "manual:" || d.oneTime

def waitingRows (queue : Deliveries) : List Delivery :=
  queue.rows.filter fun d => d.status.isWaiting

def dispatchRows (queue : Deliveries) : List Delivery :=
  (waitingRows queue).insertionSort claimOrder

structure DispatchMetadata where
  sendId : String
  clientId : String
  retryAt : Time
  oneTime : Bool
  deriving DecidableEq

def pendingDispatchMetadata (queue : Deliveries) : List DispatchMetadata :=
  (dispatchRows queue).map fun d => ⟨d.sendId, d.clientId, d.retryAt, d.oneTime⟩

def scheduledOrder (a b : Delivery) : Prop :=
  a.queuePriority < b.queuePriority ∨
    (a.queuePriority = b.queuePriority ∧
      ((a.oneTime = true ∧ b.oneTime = false) ∨
        (a.oneTime = b.oneTime ∧ a.sequence ≤ b.sequence)))

instance : DecidableRel scheduledOrder := fun a b =>
  inferInstanceAs (Decidable (a.queuePriority < b.queuePriority ∨
    (a.queuePriority = b.queuePriority ∧
      ((a.oneTime = true ∧ b.oneTime = false) ∨
        (a.oneTime = b.oneTime ∧ a.sequence ≤ b.sequence)))))

def scheduledRows (queue : Deliveries) : List Delivery :=
  (queue.rows.filter fun d => isScheduled d && d.status.isWaiting).insertionSort scheduledOrder

/-- `client.rsplit(":", 1)[-1]` -/
def scheduledName (d : Delivery) : String :=
  String.ofList (JsonValues.lastSegment ':' d.clientId.toList)

def pendingScheduledDeliveries (queue : Deliveries) : List String :=
  (scheduledRows queue).map scheduledName

def pendingOnceDeliveries (queue : Deliveries) : List Delivery :=
  (queue.rows.filter fun d => isOnce d && d.status.isPending).insertionSort claimOrder

end Queries

section Orders

instance : Std.Total claimOrder where
  total a b := by
    unfold claimOrder
    omega

instance : IsTrans Delivery claimOrder where
  trans a b d := by
    unfold claimOrder
    omega

instance : Std.Total scheduledOrder where
  total a b := by
    unfold scheduledOrder
    cases a.oneTime <;> cases b.oneTime <;> simp <;> omega

instance : IsTrans Delivery scheduledOrder where
  trans a b d := by
    unfold scheduledOrder
    cases a.oneTime <;> cases b.oneTime <;> cases d.oneTime <;> simp <;> omega

theorem claimOrder_sequence {a b : Delivery} (h : claimOrder a b) (h' : claimOrder b a) :
    a.sequence = b.sequence := by
  unfold claimOrder at h h'
  omega

/-- A scheduled client is no manual one. -/
theorem scheduled_priority {d : Delivery} (h : isScheduled d = true) :
    dispatchPriority d = if d.oneTime then 1 else 2 := by
  have hmanual : startsWith (lower d.clientId) "manual:" = false := by
    unfold isScheduled startsWith at h
    unfold startsWith
    cases htext : (lower d.clientId).toList with
    | nil => rfl
    | cons first rest =>
      rw [htext] at h
      simp only [String.reduceToList, List.isPrefixOf, Bool.and_eq_true, beq_iff_eq] at h
      rw [← h.1]
      rfl
  unfold dispatchPriority
  rw [hmanual]
  rfl

theorem scheduled_agrees {a b : Delivery} (ha : isScheduled a = true) (hb : isScheduled b = true) :
    scheduledOrder a b ↔ claimOrder a b := by
  unfold scheduledOrder claimOrder
  rw [scheduled_priority ha, scheduled_priority hb]
  cases a.oneTime <;> cases b.oneTime <;> simp

end Orders

section Numbers

/-- No two rows have the same sequence number. -/
def Numbered (queue : Deliveries) : Prop := (queue.rows.map Delivery.sequence).Nodup

variable {queue : Deliveries}

theorem numbered_separates (h : Numbered queue) {l : List Delivery} (hsub : l ⊆ queue.rows) :
    Separates claimOrder l :=
  separates_subset (separates_of_nodup (fun _ _ => claimOrder_sequence) h) hsub

theorem waiting_subset : waitingRows queue ⊆ queue.rows := fun _ hd => (List.mem_filter.mp hd).1

theorem sequence_lt_next {d : Delivery} (h : d ∈ queue.rows) : d.sequence < nextSequence queue := by
  unfold nextSequence
  have hall : ∀ l : List Delivery, d ∈ l → d.sequence ≤ (l.map Delivery.sequence).foldr max 0 := by
    intro l hd
    induction l with
    | nil => exact absurd hd List.not_mem_nil
    | cons first rest ih =>
      rw [List.map_cons, List.foldr_cons]
      rcases List.mem_cons.mp hd with rfl | hd
      · exact le_max_left _ _
      · exact le_trans (ih hd) (le_max_right _ _)
  have := hall queue.rows h
  omega

theorem change_sequence {s : Store} {call : Call} {d d' : Delivery}
    (h : DeliveryChange s call d d') :
    d'.sequence = d.sequence := by
  cases h <;> rfl

theorem step_numbered (lib : Stdlib) (s : Store) (call : Call) (h : Numbered s.queue) :
    Numbered (step lib s call).1.queue := by
  obtain ⟨old, new, hrows, hold, hnew⟩ := (step_deliveries s call lib).rows
  have hsequences : old.map Delivery.sequence = s.queue.rows.map Delivery.sequence :=
    forall₂_map_eq (f := Delivery.sequence) (fun _ _ => change_sequence) hold
  have hadded : ∀ d ∈ new, d.sequence = nextSequence s.queue ∧
      ∃ record answers, call.action = .queue (.enqueue record answers) ∧
        d.sendId = record.sendId := by
    intro d hd
    obtain ⟨a, ⟨record, answers, hcall, rfl, -⟩, hsteps⟩ := hnew d hd
    refine ⟨reflTransGen_field (f := Delivery.sequence) (fun _ _ => change_sequence) hsteps, record,
      answers, hcall, ?_⟩
    exact reflTransGen_field (f := Delivery.sendId) (fun _ _ => DeliveryChange.sendId_eq) hsteps
  have hsingle : new.length ≤ 1 := by
    have hkeys := (step lib s call).1.queue.nodup
    rw [hrows, List.map_append] at hkeys
    have hnodup := (List.nodup_append.mp hkeys).2.1
    cases new with
    | nil => exact Nat.zero_le 1
    | cons first rest =>
      cases rest with
      | nil => exact le_refl 1
      | cons second rest =>
        exfalso
        obtain ⟨-, record, answers, hcall, hfirst⟩ := hadded first List.mem_cons_self
        obtain ⟨-, record', answers', hcall', hsecond⟩ :=
          hadded second (List.mem_cons_of_mem _ List.mem_cons_self)
        have hrecord : record' = record := by
          rw [hcall] at hcall'
          cases hcall'
          rfl
        rw [List.map_cons, List.map_cons, hfirst, hsecond, hrecord] at hnodup
        exact (List.nodup_cons.mp hnodup).1 List.mem_cons_self
  unfold Numbered
  rw [hrows, List.map_append, hsequences, List.nodup_append]
  refine ⟨h, ?_, ?_⟩
  · cases new with
    | nil => exact List.nodup_nil
    | cons first rest =>
      have hrest : rest = [] := by
        apply List.length_eq_zero_iff.mp
        rw [List.length_cons] at hsingle
        omega
      rw [hrest]
      exact List.nodup_singleton _
  · intro n hn m hm hsame
    obtain ⟨d, hd, rfl⟩ := List.mem_map.mp hn
    obtain ⟨d', hd', rfl⟩ := List.mem_map.mp hm
    have hlt := sequence_lt_next hd
    rw [(hadded d' hd').1] at hsame
    omega

theorem final_numbered (lib : Stdlib) (history : List Call) :
    Numbered (final (step lib) Store.empty history).queue :=
  final_invariant (step lib) (fun _ => True) (fun s => Numbered s.queue)
    (fun s call _ hs => step_numbered lib s call hs) Store.empty List.nodup_nil history
    fun _ _ => trivial

end Numbers

section Agreement

variable {queue : Deliveries}

/-- Everything else that is selected from the waiting rows keeps their order. -/
theorem dispatchRows_filter (h : Numbered queue) {le : Delivery → Delivery → Prop} [DecidableRel le]
    [Std.Total le] [IsTrans Delivery le] {p : Delivery → Bool}
    (hsame : ∀ a b, p a = true → p b = true → (le a b ↔ claimOrder a b)) :
    ((waitingRows queue).filter p).insertionSort le = (dispatchRows queue).filter p :=
  sort_filter (numbered_separates h waiting_subset) hsame

theorem scheduledRows_eq (h : Numbered queue) :
    scheduledRows queue = (dispatchRows queue).filter isScheduled := by
  rw [← dispatchRows_filter h fun _ _ ha hb => scheduled_agrees ha hb]
  unfold scheduledRows waitingRows
  rw [List.filter_filter]

theorem pending_of_waiting {status : DeliveryStatus} (h : status.isWaiting = true) :
    status.isPending = true := by
  cases status with
  | running => rfl
  | _ => exact h

theorem pendingOnce_waiting (h : Numbered queue) :
    (pendingOnceDeliveries queue).filter (fun d => d.status.isWaiting) =
      (dispatchRows queue).filter isOnce := by
  have hrows : Separates claimOrder (queue.rows.filter fun d => isOnce d && d.status.isPending) :=
    numbered_separates h fun _ hd => (List.mem_filter.mp hd).1
  unfold pendingOnceDeliveries
  rw [← sort_filter hrows fun _ _ _ _ => Iff.rfl, ← dispatchRows_filter h fun _ _ _ _ => Iff.rfl]
  congr 1
  unfold waitingRows
  rw [List.filter_filter, List.filter_filter]
  apply List.filter_congr
  intro d _
  cases hwaiting : d.status.isWaiting
  · simp
  · simp [pending_of_waiting hwaiting]

theorem mem_dispatchRows {d : Delivery} :
    d ∈ dispatchRows queue ↔ d ∈ queue.rows ∧ d.status.isWaiting = true := by
  unfold dispatchRows waitingRows
  rw [List.mem_insertionSort, List.mem_filter]

theorem dispatch_nodup (queue : Deliveries) : ((dispatchRows queue).map Delivery.sendId).Nodup := by
  have hperm := (List.perm_insertionSort claimOrder (waitingRows queue)).map Delivery.sendId
  apply hperm.nodup_iff.mpr
  exact queue.nodup.sublist (List.filter_sublist.map Delivery.sendId)

/-- In a list with different keys, leaving out the first key leaves the rest. -/
theorem filter_key_ne {d : Delivery} {rest : List Delivery}
    (h : ((d :: rest).map Delivery.sendId).Nodup) :
    (d :: rest).filter (fun a => decide (a.sendId ≠ d.sendId)) = rest := by
  rw [List.map_cons, List.nodup_cons] at h
  rw [List.filter_cons_of_neg (by simp)]
  apply List.filter_eq_self.mpr
  intro a ha
  have hne : a.sendId ≠ d.sendId := by
    intro hsame
    apply h.1
    rw [← hsame]
    exact List.mem_map_of_mem ha
  simpa using hne

end Agreement

section Claims

variable {queue : Deliveries}

def UncappedClaim (call : Call) : Prop :=
  ∃ owner leaseSeconds fireAndForget answers,
    call.action = .queue (.claimNext owner leaseSeconds fireAndForget none answers)

def claimedId : Output → Option String
  | .delivery claimed => claimed.map Delivery.sendId
  | _ => none

theorem waiting_expireRows (queue : Deliveries) (now : Time) :
    waitingRows (expireRows queue now).1 = waitingRows queue := by
  have hrunning : ∀ d, expiredLease now d = true → d.status.isWaiting = false := by
    intro d hd
    simp only [expiredLease, Bool.and_eq_true, decide_eq_true_eq] at hd
    rw [hd.1]
    rfl
  apply filter_map_fixed
  · intro d _
    cases hd : expiredLease now d
    · rfl
    · exact (hrunning d hd).symm
  · intro d _ hwaiting
    cases hd : expiredLease now d
    · rfl
    · rw [hrunning d hd] at hwaiting
      exact absurd hwaiting Bool.false_ne_true

theorem next_due {now : Time} (hdue : ∀ d ∈ dispatchRows queue, d.retryAt ≤ now) :
    nextClaimable (expireRows queue now).1 now = (dispatchRows queue).head? := by
  have hclaimable : (expireRows queue now).1.rows.filter (claimable now) =
      waitingRows (expireRows queue now).1 := by
    apply List.filter_congr
    intro d hd
    unfold claimable
    cases hwaiting : d.status.isWaiting
    · rfl
    · have hmem : d ∈ waitingRows (expireRows queue now).1 := List.mem_filter.mpr ⟨hd, hwaiting⟩
      rw [waiting_expireRows] at hmem
      have := hdue d ((List.mem_insertionSort claimOrder).mpr hmem)
      simpa using this
  unfold nextClaimable
  rw [hclaimable, waiting_expireRows]
  rfl

/-- A leased row no longer waits. -/
theorem dispatch_leased (h : Numbered queue) {now : Time} {d : Delivery} {rest : List Delivery}
    (hrows : dispatchRows queue = d :: rest) (hdue : d.retryAt ≤ now) (owner : String)
    (leaseSeconds : Time) :
    dispatchRows ((expireRows queue now).1.updateAt d.sendId (claimable now)
      (lease owner leaseSeconds now) fun _ => rfl) = rest := by
  have hd : d ∈ waitingRows (expireRows queue now).1 := by
    rw [waiting_expireRows, ← List.mem_insertionSort claimOrder]
    show d ∈ dispatchRows queue
    rw [hrows]
    exact List.mem_cons_self
  obtain ⟨hrow, hwaits⟩ := List.mem_filter.mp hd
  have hwaiting : waitingRows ((expireRows queue now).1.updateAt d.sendId (claimable now)
      (lease owner leaseSeconds now) fun _ => rfl) =
        (waitingRows queue).filter fun a => decide (a.sendId ≠ d.sendId) := by
    rw [← waiting_expireRows queue now, waitingRows, waitingRows, List.filter_filter]
    apply filter_map_fixed
    · intro a ha
      by_cases hid : a.sendId = d.sendId
      · obtain rfl : a = d := List.inj_on_of_nodup_map (expireRows queue now).1.nodup ha hrow hid
        have hclaimable : claimable now a = true := by
          unfold claimable
          rw [hwaits, decide_eq_true hdue]
          rfl
        simp [hclaimable, lease, DeliveryStatus.isWaiting]
      · simp [hid]
    · intro a _ hkept
      simp only [Bool.and_eq_true, decide_eq_true_eq] at hkept
      simp [hkept.1]
  unfold dispatchRows
  rw [hwaiting, dispatchRows_filter h fun _ _ _ _ => Iff.rfl, hrows]
  apply filter_key_ne
  rw [← hrows]
  exact dispatch_nodup queue

/-- A claim hands out the first waiting row, and the others keep waiting. -/
theorem claim_step (lib : Stdlib) {s : Store} {call : Call} (h : Numbered s.queue)
    (hcall : UncappedClaim call) (hdue : ∀ d ∈ dispatchRows s.queue, d.retryAt ≤ call.now) :
    claimedId (step lib s call).2 = (dispatchRows s.queue).head?.map Delivery.sendId ∧
      dispatchRows (step lib s call).1.queue = (dispatchRows s.queue).tail := by
  obtain ⟨owner, leaseSeconds, fireAndForget, answers, haction⟩ := hcall
  have hnext := next_due hdue
  rw [step_queue haction]
  show claimedId (Output.delivery
      (claimNext s owner leaseSeconds fireAndForget none answers call.now).2) = _ ∧
    dispatchRows (claimNext s owner leaseSeconds fireAndForget none answers call.now).1.queue = _
  unfold claimNext
  dsimp only
  rw [if_neg (by simp [hasCapacity])]
  cases hrows : dispatchRows s.queue with
  | nil =>
    rw [hrows] at hnext
    rw [hnext]
    refine ⟨rfl, ?_⟩
    show (waitingRows (expireRows s.queue call.now).1).insertionSort claimOrder = []
    rw [waiting_expireRows]
    exact hrows
  | cons d rest =>
    rw [hrows] at hnext hdue
    rw [hnext]
    exact ⟨rfl, dispatch_leased h hrows (hdue d List.mem_cons_self) owner leaseSeconds⟩

/-- Claims hand out the waiting rows in their order, and nothing once there are none left. -/
theorem claims_run (lib : Stdlib) (calls : List Call) {s : Store} (h : Numbered s.queue)
    (hcalls : ∀ call ∈ calls, UncappedClaim call)
    (hdue : ∀ call ∈ calls, ∀ d ∈ dispatchRows s.queue, d.retryAt ≤ call.now) :
    (events (step lib) s calls).map (fun e => claimedId e.output) =
      (List.range calls.length).map fun i => (dispatchRows s.queue)[i]?.map Delivery.sendId := by
  induction calls generalizing s with
  | nil => rfl
  | cons call rest ih =>
    obtain ⟨hclaimed, hleft⟩ :=
      claim_step lib h (hcalls call List.mem_cons_self) (hdue call List.mem_cons_self)
    have hrest := ih (step_numbered lib s call h)
      (fun call' hcall' => hcalls call' (List.mem_cons_of_mem _ hcall')) (by
        intro call' hcall' d hd
        rw [hleft] at hd
        exact hdue call' (List.mem_cons_of_mem _ hcall') d (List.mem_of_mem_tail hd))
    rw [events, List.map_cons, hrest, hclaimed, hleft, List.length_cons, List.range_succ_eq_map,
      List.map_cons, List.map_map]
    congr 1
    · cases dispatchRows s.queue <;> rfl
    · apply List.map_congr_left
      intro i _
      cases dispatchRows s.queue <;> rfl

end Claims

section Bumps

variable {s : Store} {sendId : String} {d : Delivery}

theorem frontPriority_lt {queue : Deliveries} (h : d ∈ queue.rows) :
    frontPriority queue < d.queuePriority := by
  unfold frontPriority
  cases hmin : (queue.rows.map Delivery.queuePriority).min? with
  | none =>
    rw [List.min?_eq_none_iff, List.map_eq_nil_iff] at hmin
    rw [hmin] at h
    exact absurd h List.not_mem_nil
  | some least =>
    have hle := (List.min?_eq_some_iff.mp hmin).2 _ (List.mem_map_of_mem h)
    rw [Option.getD_some]
    omega

def bumped (queue : Deliveries) (d : Delivery) : Delivery :=
  { d with queuePriority := frontPriority queue }

theorem bump_numbered (h : Numbered s.queue) (sendId : String) :
    Numbered (bumpToFront s sendId).1.queue := by
  have hsame : (bumpToFront s sendId).1.queue.rows.map Delivery.sequence =
      s.queue.rows.map Delivery.sequence := by
    show (s.queue.rows.map _).map Delivery.sequence = _
    rw [List.map_map]
    apply List.map_congr_left
    intro a _
    dsimp only [Function.comp]
    split <;> rfl
  unfold Numbered
  rw [hsame]
  exact h

theorem waiting_bumped (s : Store) (sendId : String) :
    waitingRows (bumpToFront s sendId).1.queue =
      (waitingRows s.queue).map fun a => if a.sendId = sendId then bumped s.queue a else a := by
  have hrows : (bumpToFront s sendId).1.queue.rows = s.queue.rows.map fun a =>
      if decide (a.sendId = sendId) && a.status.isWaiting then bumped s.queue a else a := rfl
  unfold waitingRows
  rw [hrows, List.filter_map]
  have hsame : s.queue.rows.filter ((fun a => a.status.isWaiting) ∘ fun a =>
      if decide (a.sendId = sendId) && a.status.isWaiting then bumped s.queue a else a) =
        s.queue.rows.filter fun a => a.status.isWaiting := by
    apply List.filter_congr
    intro a _
    dsimp only [Function.comp]
    split <;> rfl
  rw [hsame]
  apply List.map_congr_left
  intro a ha
  simp [(List.mem_filter.mp ha).2]

/-- A waiting row and those with other keys are all of them. -/
theorem dispatch_perm (hd : d ∈ dispatchRows s.queue) :
    (waitingRows s.queue).Perm
      (d :: (dispatchRows s.queue).filter fun a => decide (a.sendId ≠ d.sendId)) := by
  have hkeys := dispatch_nodup s.queue
  have herase : (dispatchRows s.queue).erase d =
      (dispatchRows s.queue).filter fun a => decide (a.sendId ≠ d.sendId) := by
    rw [(List.Nodup.of_map _ hkeys).erase_eq_filter]
    apply List.filter_congr
    intro a ha
    by_cases hsame : a = d
    · simp [hsame]
    · have hid : a.sendId ≠ d.sendId := fun hid => hsame (List.inj_on_of_nodup_map hkeys ha hd hid)
      simp [hsame, hid]
  rw [← herase]
  exact (List.perm_insertionSort claimOrder (waitingRows s.queue)).symm.trans
    (List.perm_cons_erase hd)

/-- A bump moves a waiting row ahead of the others, which keep their order. -/
theorem dispatch_bumped (h : Numbered s.queue) (hd : s.queue.lookup sendId = some d)
    (hwaiting : d.status.isWaiting = true) :
    dispatchRows (bumpToFront s sendId).1.queue =
      bumped s.queue d :: (dispatchRows s.queue).filter fun a => decide (a.sendId ≠ sendId) := by
  obtain ⟨hrow, rfl⟩ := Table.lookup_eq_some_iff.mp hd
  have hmem : d ∈ dispatchRows s.queue := mem_dispatchRows.mpr ⟨hrow, hwaiting⟩
  apply sort_unique (numbered_separates (bump_numbered h d.sendId) waiting_subset)
  · have hperm := (dispatch_perm hmem).map fun a =>
      if a.sendId = d.sendId then bumped s.queue a else a
    rw [← waiting_bumped, List.map_cons, if_pos rfl] at hperm
    refine List.Perm.trans ?_ hperm.symm
    have hkept : ((dispatchRows s.queue).filter fun a => decide (a.sendId ≠ d.sendId)).map
        (fun a => if a.sendId = d.sendId then bumped s.queue a else a) =
          (dispatchRows s.queue).filter fun a => decide (a.sendId ≠ d.sendId) := by
      conv_rhs => rw [← List.map_id (List.filter _ _)]
      apply List.map_congr_left
      intro a ha
      have hid := of_decide_eq_true (List.mem_filter.mp ha).2
      exact if_neg hid
    rw [hkept]
  · apply List.pairwise_cons.mpr
    constructor
    · intro a ha
      have hrow' := (mem_dispatchRows.mp (List.mem_filter.mp ha).1).1
      exact Or.inl (frontPriority_lt hrow')
    · exact (List.pairwise_insertionSort claimOrder _).filter _

/-- The bumped delivery is the first of the list, and the others keep their order. -/
theorem bump_first (h : Numbered s.queue) (hd : s.queue.lookup sendId = some d)
    (hwaiting : d.status.isWaiting = true) :
    (pendingDispatchMetadata (bumpToFront s sendId).1.queue).map DispatchMetadata.sendId =
      sendId :: ((pendingDispatchMetadata s.queue).map DispatchMetadata.sendId).filter
        fun k => decide (k ≠ sendId) := by
  have hids : ∀ queue : Deliveries, (pendingDispatchMetadata queue).map DispatchMetadata.sendId =
      (dispatchRows queue).map Delivery.sendId := by
    intro queue
    unfold pendingDispatchMetadata
    rw [List.map_map]
    rfl
  rw [hids, hids, dispatch_bumped h hd hwaiting, List.map_cons, List.filter_map]
  have hkey : d.sendId = sendId := Table.lookup_key hd
  congr 1

end Bumps

/-- The claims follow the displayed order, the other two lists are selections of it, and a bump
moves one waiting row to its front. -/
structure Ordered (lib : Stdlib) (s : Store) : Prop where
  claims : ∀ calls : List Call, (∀ call ∈ calls, UncappedClaim call) →
    (∀ call ∈ calls, ∀ d ∈ s.queue.rows, d.status.isWaiting = true → d.retryAt ≤ call.now) →
    (events (step lib) s calls).map (fun e => claimedId e.output) =
      (List.range calls.length).map fun i =>
        (pendingDispatchMetadata s.queue)[i]?.map DispatchMetadata.sendId
  scheduled : pendingScheduledDeliveries s.queue =
    ((dispatchRows s.queue).filter isScheduled).map scheduledName
  once : (pendingOnceDeliveries s.queue).filter (fun d => d.status.isWaiting) =
    (dispatchRows s.queue).filter isOnce
  bump : ∀ sendId d, s.queue.lookup sendId = some d → d.status.isWaiting = true →
    (pendingDispatchMetadata (bumpToFront s sendId).1.queue).map DispatchMetadata.sendId =
      sendId :: ((pendingDispatchMetadata s.queue).map DispatchMetadata.sendId).filter
        fun k => decide (k ≠ sendId)

theorem numbered_ordered (lib : Stdlib) {s : Store} (h : Numbered s.queue) : Ordered lib s where
  claims := by
    intro calls hcalls hdue
    rw [claims_run lib calls h hcalls]
    · apply List.map_congr_left
      intro i _
      unfold pendingDispatchMetadata
      rw [List.getElem?_map, Option.map_map]
      rfl
    · intro call hcall d hd
      obtain ⟨hrow, hwaiting⟩ := mem_dispatchRows.mp hd
      exact hdue call hcall d hrow hwaiting
  scheduled := by
    unfold pendingScheduledDeliveries
    rw [scheduledRows_eq h]
  once := pendingOnce_waiting h
  bump _ _ hd := bump_first h hd

/-- After every run of the service the deliveries are ordered. -/
theorem dispatch_ordered (lib : Stdlib) (history : List Call) :
    Ordered lib (final (step lib) Store.empty history) :=
  numbered_ordered lib (final_numbered lib history)

end Prompta.DispatchOrder
