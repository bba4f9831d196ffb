import Prompta.JobSteps

/-!
The deliveries of the jobs. A row of the queue goes back to the record of a manual
request or to an occurrence of a job, and its identifiers say which. The digest tells
the occurrences of different jobs and of different markers apart.
-/
namespace Prompta.JobDeliveries

open Relation Runs Tables Texts DisplayBlocks Schema ResponseStore DeliveryQueue ManualQueue Service
  Decimals Jobs SchedulerPolicy Scheduler FreshChats JobSteps Roundings

def RowChange (now : Time) (d d' : Delivery) : Prop :=
  ∃ s call, call.now = now ∧ DeliveryChange s call d d'

/-- The row was queued at the given time for a manual request or another job. -/
def Foreign (lib : Stdlib) (name : String) (now : Time) (d : Delivery) : Prop :=
  ∃ queue record, d = queuedDelivery queue record now ∧
    ((∃ request, record = manualRecord request) ∨
      ∃ job state, job.name ≠ name ∧ record = scheduledRecord job (occurrenceKey lib job state))

section Changes

variable {now : Time} {d d' : Delivery}

theorem RowChange.sendId_eq (h : RowChange now d d') : d'.sendId = d.sendId := by
  obtain ⟨_, _, _, hchange⟩ := h
  exact hchange.sendId_eq

theorem RowChange.clientId_eq (h : RowChange now d d') : d'.clientId = d.clientId := by
  obtain ⟨_, _, _, hchange⟩ := h
  cases hchange <;> rfl

theorem RowChange.createdAt_eq (h : RowChange now d d') : d'.createdAt = d.createdAt := by
  obtain ⟨_, _, _, hchange⟩ := h
  cases hchange <;> rfl

/-- A terminal row is changed by its confirmation only. -/
theorem change_of_terminal {s : Store} {call : Call} (hchange : DeliveryChange s call d d')
    (hd : d.status.isTerminal = true) :
    d.status = .outcomeUnknown ∧ reconciles call ∧ d' = confirm call.now d := by
  have hnotWaiting : d.status.isWaiting = true → False := by
    intro hwaiting
    have hnot := DeliveryStatus.waiting_not_terminal hwaiting
    rw [hd] at hnot
    exact Bool.noConfusion hnot
  have hnotRunning : d.status = .running → False := by
    intro hrunning
    rw [hrunning] at hd
    exact Bool.noConfusion hd
  have hnotHeld : ∀ {owner}, holds owner call.now d = true → False := by
    intro owner hholds
    simp only [holds, Bool.and_eq_true, decide_eq_true_eq] at hholds
    exact hnotRunning hholds.1.1
  cases hchange with
  | edited _ _ _ _ h => exact (hnotWaiting h).elim
  | expired h =>
    simp only [expiredLease, Bool.and_eq_true, decide_eq_true_eq] at h
    exact (hnotRunning h.1).elim
  | confirmed h hcall => exact ⟨h, hcall, rfl⟩
  | cancelled _ h => exact (hnotWaiting h).elim
  | leased _ _ _ _ _ _ h =>
    simp only [claimable, Bool.and_eq_true] at h
    exact (hnotWaiting h.1).elim
  | renewed _ _ _ h => exact (hnotHeld h).elim
  | retried _ _ _ _ _ _ h => exact (hnotHeld h).elim
  | completed _ _ h => exact (hnotHeld h).elim
  | failed _ _ _ _ _ h => exact (hnotHeld h).elim

theorem RowChange.of_terminal (h : RowChange now d d') (hd : d.status.isTerminal = true) :
    d.status = .outcomeUnknown ∧ d' = confirm now d := by
  obtain ⟨s, call, rfl, hchange⟩ := h
  obtain ⟨hunknown, _, hconfirm⟩ := change_of_terminal hchange hd
  exact ⟨hunknown, hconfirm⟩

end Changes

theorem step_rows (lib : Stdlib) (s : Store) (call : Call) :
    Evolves (RowChange call.now) (NewDelivery s call) s.queue (step lib s call).1.queue :=
  (step_deliveries s call lib).mono (fun _ _ h => ⟨s, call, rfl, h⟩) fun _ h => h

/-- Beside the enqueue of the job itself all new rows are foreign ones. -/
theorem storeStep_evolves {lib : Stdlib} {name : String} {call : SchedulerCall} {s s' : Store}
    (h : StoreStep lib name call s s') :
    Evolves (RowChange call.now) (Foreign lib name call.now) s.queue s'.queue := by
  have hquiet : ∀ c : Call, enqueues c = false → Evolves (RowChange c.now)
      (Foreign lib name c.now) s.queue (step lib s c).1.queue := by
    intro c hc
    refine (step_rows lib s c).mono (fun _ _ h => h) ?_
    rintro d ⟨record, answers, haction, _⟩
    unfold enqueues at hc
    rw [haction] at hc
    exact Bool.noConfusion hc
  have hqueued : ∀ record answers now, (∀ d, d = queuedDelivery s.queue record now →
      Foreign lib name now d) → Evolves (RowChange now) (Foreign lib name now) s.queue
        (enqueueIdempotent s record answers now).1.queue := by
    intro record answers now hforeign
    refine (step_rows lib s ⟨.queue (.enqueue record answers), now⟩).mono (fun _ _ h => h) ?_
    rintro d ⟨record', answers', haction, hd, _⟩
    cases haction
    exact hforeign d hd
  cases h with
  | service c hc hcall =>
    subst hcall
    exact hquiet c hc
  | manual request answers hcall =>
    have hmanual := hqueued (manualRecord request) answers call.now fun d hd =>
      ⟨s.queue, manualRecord request, hd, Or.inl ⟨request, rfl⟩⟩
    rcases manual_sameRows lib s request answers call.now with hsame | hsame
    · rw [hsame.queue]
      exact Evolves.refl _
    · rw [hsame.queue]
      exact hmanual
  | promoted input sendId hcall =>
    subst hcall
    exact hquiet ⟨.queue (.promoteOneTime sendId), input.now⟩ rfl
  | withdrawn fired requestId sendId now hcall =>
    subst hcall
    exact hquiet ⟨.queue (.cancelPending sendId "superseded by manual fire" true), now⟩ rfl
  | scheduled input job state hcall hname =>
    subst hcall
    exact hqueued _ true _ fun d hd => ⟨s.queue, _, hd, Or.inr ⟨job, state, hname, rfl⟩⟩

/-- What is used of the digest of an occurrence. -/
structure KeyDigest (lib : Stdlib) : Prop where
  injective : Function.Injective lib.sha256
  hexadecimal : ∀ t, ∀ c ∈ (lib.sha256 t).toList, isLowerHex c = true

section Keys

variable {lib : Stdlib}

def keySendId (lib : Stdlib) (name promptHash : String) (n : ℕ) : String :=
  scheduledSendId (lib.sha256
    (name.toList ++ '\x00' :: (promptHash.toList ++ '\x00' :: fixedText n)))

theorem scheduledSendId_injective : Function.Injective scheduledSendId := by
  intro a b h
  exact (String.append_right_inj "scheduled-").mp h

theorem scheduledSendId_ne (key : String) : scheduledSendId key ≠ "" := by
  intro hempty
  have htext := congrArg String.toList hempty
  rw [scheduledSendId, String.toList_append] at htext
  cases htext

theorem manualSendId_ne_scheduled (requestId key : String) :
    manualSendId requestId ≠ scheduledSendId key := by
  intro h
  have hhead := congrArg (fun t : String => t.toList.head?) h
  rw [manualSendId, scheduledSendId, String.toList_append, String.toList_append] at hhead
  exact absurd (Option.some.inj hhead) (by decide)

/-- A text is cut in one way at its last separator. -/
theorem separated_inj {a a' b b' : List Char} {c : Char} (hb : c ∉ b) (hb' : c ∉ b')
    (h : a ++ c :: b = a' ++ c :: b') : a = a' ∧ b = b' := by
  rcases List.append_eq_append_iff.mp h with ⟨mid, ha, hrest⟩ | ⟨mid, ha, hrest⟩
  · cases mid with
    | nil => exact ⟨by rw [ha, List.append_nil], (List.cons.inj hrest).2⟩
    | cons x xs =>
      rw [(List.cons.inj hrest).2] at hb
      exact absurd (List.mem_append_right xs List.mem_cons_self) hb
  · cases mid with
    | nil => exact ⟨by rw [ha, List.append_nil], (List.cons.inj hrest).2.symm⟩
    | cons x xs =>
      rw [(List.cons.inj hrest).2] at hb'
      exact absurd (List.mem_append_right xs List.mem_cons_self) hb'

/-- And in one way at its first separator. -/
theorem separated_inj_first {a a' b b' : List Char} {c : Char} (ha : c ∉ a) (ha' : c ∉ a')
    (h : a ++ c :: b = a' ++ c :: b') : a = a' ∧ b = b' := by
  rcases List.append_eq_append_iff.mp h with ⟨mid, hmid, hrest⟩ | ⟨mid, hmid, hrest⟩
  · cases mid with
    | nil => exact ⟨by rw [hmid, List.append_nil], (List.cons.inj hrest).2⟩
    | cons x xs =>
      rw [hmid, ← (List.cons.inj hrest).1] at ha'
      exact absurd (List.mem_append_right a List.mem_cons_self) ha'
  · cases mid with
    | nil => exact ⟨by rw [hmid, List.append_nil], (List.cons.inj hrest).2.symm⟩
    | cons x xs =>
      rw [hmid, ← (List.cons.inj hrest).1] at ha
      exact absurd (List.mem_append_right a' List.mem_cons_self) ha

theorem fixedText_no_separator (n : ℕ) : '\x00' ∉ fixedText n := by
  intro h
  rcases fixedText_digits n h with hdigit | hpoint
  · exact absurd hdigit (by decide)
  · exact absurd hpoint (by decide)

theorem digest_no_separator (hdigest : KeyDigest lib) (t : Text) :
    '\x00' ∉ (lib.sha256 t).toList := by
  intro h
  exact absurd (hdigest.hexadecimal t _ h) (by decide)

/-- The identifier says the name, the prompt and the marker of the occurrence. -/
theorem keySendId_inj (hdigest : KeyDigest lib) {name name' : String} {prompt prompt' : Text}
    {n n' : ℕ}
    (h : keySendId lib name (lib.sha256 prompt) n = keySendId lib name' (lib.sha256 prompt') n') :
    name = name' ∧ prompt = prompt' ∧ n = n' := by
  have htext := hdigest.injective (scheduledSendId_injective h)
  rw [← List.cons_append, ← List.cons_append, ← List.append_assoc, ← List.append_assoc] at htext
  obtain ⟨hfront, hmarker⟩ :=
    separated_inj (fixedText_no_separator n) (fixedText_no_separator n') htext
  obtain ⟨hname, hprompt⟩ := separated_inj (digest_no_separator hdigest prompt)
    (digest_no_separator hdigest prompt') hfront
  exact ⟨String.toList_injective hname, hdigest.injective (String.toList_injective hprompt),
    fixedText_injective hmarker⟩

/-- A foreign row has another identifier than the occurrences of the job. -/
theorem Foreign.sendId_ne (hdigest : KeyDigest lib) {name : String} {now : Time} {d : Delivery}
    (h : Foreign lib name now d) (prompt : Text) (n : ℕ) :
    d.sendId ≠ keySendId lib name (lib.sha256 prompt) n := by
  obtain ⟨queue, record, rfl, hrecord⟩ := h
  rcases hrecord with ⟨request, rfl⟩ | ⟨job, state, hname, rfl⟩
  · exact manualSendId_ne_scheduled _ _
  · intro hsame
    exact hname (keySendId_inj hdigest hsame).1

/-- The two identifiers of a row go back to one record. -/
def Recorded (lib : Stdlib) (d : Delivery) : Prop :=
  (∃ request, d.sendId = (manualRecord request).sendId ∧
    d.clientId = (manualRecord request).clientId) ∨
    ∃ job state, d.sendId = scheduledSendId (occurrenceKey lib job state) ∧
      d.clientId = (scheduledRecord job (occurrenceKey lib job state)).clientId

theorem Recorded.change {now : Time} {d d' : Delivery} (h : RowChange now d d')
    (hd : Recorded lib d) : Recorded lib d' := by
  unfold Recorded
  rw [h.sendId_eq, h.clientId_eq]
  exact hd

theorem Foreign.recorded {name : String} {now : Time} {d : Delivery} (h : Foreign lib name now d) :
    Recorded lib d := by
  obtain ⟨queue, record, rfl, ⟨request, rfl⟩ | ⟨job, state, _, rfl⟩⟩ := h
  · exact Or.inl ⟨request, rfl, rfl⟩
  · exact Or.inr ⟨job, state, rfl, rfl⟩

theorem digest_no_colon (hdigest : KeyDigest lib) (t : Text) : ':' ∉ (lib.sha256 t).toList := by
  intro h
  exact absurd (hdigest.hexadecimal t _ h) (by decide)

/-- A row of the same client identifier has the identifier of the occurrence. -/
theorem Recorded.sendId_eq (hdigest : KeyDigest lib) {d : Delivery} (h : Recorded lib d)
    (job : PromptJob) (t : Text)
    (hclient : d.clientId = (scheduledRecord job (lib.sha256 t)).clientId) :
    d.sendId = scheduledSendId (lib.sha256 t) := by
  rcases h with ⟨request, _, hmanual⟩ | ⟨job', state, hsend, hscheduled⟩
  · rw [hmanual] at hclient
    have hhead := congrArg (fun t : String => t.toList.head?) hclient
    simp only [manualRecord, manualClientId, scheduledRecord, String.toList_append] at hhead
    exact absurd (Option.some.inj hhead) (by decide)
  · rw [hscheduled] at hclient
    have htext := congrArg String.toList hclient
    simp only [scheduledRecord, String.toList_append, List.append_assoc,
      List.append_right_inj] at htext
    change _ ++ ':' :: _ = _ ++ ':' :: _ at htext
    have hkey := (separated_inj_first (digest_no_colon hdigest _)
        (digest_no_colon hdigest t) htext).1
    rw [hsend]
    exact congrArg scheduledSendId (String.toList_injective hkey)

/-- The delivery that is found for an occurrence has its identifier. -/
theorem existing_sendId (hdigest : KeyDigest lib) {queue : Deliveries} {job : PromptJob} {t : Text}
    {d : Delivery} (hrows : ∀ r ∈ queue.rows, Recorded lib r)
    (h : existingDelivery queue (scheduledRecord job (lib.sha256 t)) = some d) :
    queue.lookup (scheduledSendId (lib.sha256 t)) = some d := by
  unfold existingDelivery at h
  rcases Option.or_eq_some_iff.mp h with hsend | ⟨_, hclient⟩
  · exact hsend
  · split at hclient
    · cases hclient
    · have hmem := List.mem_of_find?_eq_some hclient
      have hsame := List.find?_some hclient
      rw [decide_eq_true_eq] at hsame
      have hid := (hrows d hmem).sendId_eq hdigest job t hsame
      rw [← hid]
      exact Table.lookup_of_mem hmem

theorem Recorded.sendId_ne {d : Delivery} (h : Recorded lib d) : d.sendId ≠ "" := by
  rcases h with ⟨request, hmanual, _⟩ | ⟨job, state, hscheduled, _⟩
  · rw [hmanual]
    exact manualSendId_ne request.requestId
  · rw [hscheduled]
    exact scheduledSendId_ne _

def AllRecorded (lib : Stdlib) (s : Store) : Prop := ∀ d ∈ s.queue.rows, Recorded lib d

/-- What a step of the job does to the rows, but for the row that it creates. -/
theorem jobStep_rows [Rounding] {cal : Calendar} {name : String} {start : SchedulerState}
    {call : SchedulerCall}
    {v v' : JobView}
    (h : JobStep lib cal name start call v v') :
    Evolves (RowChange call.now) (Foreign lib name call.now) v.store.queue v'.store.queue ∨
      ∃ input job d, call = .tick input ∧ DueNow cal input name v job ∧
        v.store.queue.lookup d.sendId = none ∧
        d = queuedDelivery v.store.queue
          (scheduledRecord job (occurrenceKey lib job (seen input name v))) input.now ∧
        v'.store.queue = v.store.queue.insertNew d := by
  cases h with
  | stored store h => exact Or.inl (storeStep_evolves h)
  | created input job d c hcall hjob hv hallows hdue hnone hd hstore =>
    refine Or.inr ⟨input, job, d, hcall, hdue, ?_, hd, rfl⟩
    rw [hd]
    exact (Option.or_eq_none_iff.mp hnone).1
  | _ => exact Or.inl (Evolves.refl _)

/-- New rows are recorded, and old ones keep their identifiers. -/
theorem jobStep_recorded [Rounding] {cal : Calendar} {name : String} {start : SchedulerState}
    {call : SchedulerCall}
    {v v' : JobView}
    (h : JobStep lib cal name start call v v') (hv : AllRecorded lib v.store) :
    AllRecorded lib v'.store := by
  rcases jobStep_rows h with hrows | ⟨input, job, d, _, _, hfree, hd, hqueue⟩
  · exact hrows.keeps (fun _ _ hab => Recorded.change hab) (fun _ hnew => Foreign.recorded hnew) hv
  · intro r hr
    rw [hqueue] at hr
    rcases Table.mem_insertNew hr with hold | ⟨rfl, _⟩
    · exact hv r hold
    · rw [hd]
      exact Or.inr ⟨job, _, rfl, rfl⟩

/-- A row is found again after a step, changed. -/
theorem row_later [Rounding] {cal : Calendar} {name : String} {start : SchedulerState}
    {call : SchedulerCall} {v v' : JobView}
    (h : JobStep lib cal name start call v v') {sendId : String} {d : Delivery}
    (hd : v.store.queue.lookup sendId = some d) :
    ∃ d', v'.store.queue.lookup sendId = some d' ∧ ReflTransGen (RowChange call.now) d d' := by
  rcases jobStep_rows h with hrows | ⟨input, job, new, _, _, hfree, hnew, hqueue⟩
  · exact hrows.lookup_some (fun _ _ hab => hab.sendId_eq) hd
  · refine ⟨d, ?_, ReflTransGen.refl⟩
    rw [hqueue, Table.lookup_insertNew_ne _ _ _, hd]
    rintro rfl
    rw [hfree] at hd
    cases hd

/-- A terminal row stays terminal. -/
theorem terminal_later [Rounding] {cal : Calendar} {name : String} {start : SchedulerState}
    {call : SchedulerCall} {v v' : JobView} (h : JobStep lib cal name start call v v')
    {sendId : String}
    (hv : ∃ d, v.store.queue.lookup sendId = some d ∧ d.status.isTerminal = true) :
    ∃ d, v'.store.queue.lookup sendId = some d ∧ d.status.isTerminal = true := by
  obtain ⟨d, hd, hterminal⟩ := hv
  obtain ⟨d', hd', hpath⟩ := row_later h hd
  refine ⟨d', hd', reflTransGen_keeps (P := fun r => r.status.isTerminal = true) ?_ hpath hterminal⟩
  intro a b hab ha
  obtain ⟨_, hconfirm⟩ := hab.of_terminal ha
  rw [hconfirm]
  rfl

end Keys

section Sample

def digitBlock (c : Char) : List Char := (Nat.toDigits 10 c.toNat).leftpad 7 '0'

theorem digitBlock_length (c : Char) : (digitBlock c).length = 7 := by
  have hbound : c.toNat < 10 ^ 7 := by
    have hvalid := c.valid
    rcases hvalid with h | ⟨_, h⟩
    · exact lt_of_lt_of_le h (by norm_num)
    · exact lt_of_lt_of_le h (by norm_num)
  have hlength : (Nat.toDigits 10 c.toNat).length ≤ 7 :=
    (Nat.length_toDigits_le_iff (by omega) (by omega)).mpr hbound
  unfold digitBlock
  rw [List.length_leftpad]
  omega

theorem digitBlock_injective : Function.Injective digitBlock := by
  intro a b h
  have hread := congrArg (fun t => Nat.ofDigitChars 10 t 0) h
  simp only [digitBlock, List.leftpad, ofDigitChars_zeros, Nat.ofDigitChars_ten_toDigits] at hread
  exact Char.toNat_inj.mp hread

theorem digitBlocks_length (t : Text) : (t.flatMap digitBlock).length = 7 * t.length := by
  induction t with
  | nil => rfl
  | cons c rest ih =>
    rw [List.flatMap_cons, List.length_append, digitBlock_length, ih, List.length_cons]
    ring

theorem digitBlocks_inj {a b : Text} (h : a.flatMap digitBlock = b.flatMap digitBlock) : a = b := by
  have hlength := congrArg List.length h
  rw [digitBlocks_length, digitBlocks_length] at hlength
  induction a generalizing b with
  | nil =>
    rw [List.length_nil] at hlength
    exact (List.eq_nil_of_length_eq_zero (by omega)).symm
  | cons c rest ih =>
    cases b with
    | nil =>
      rw [List.length_nil, List.length_cons] at hlength
      omega
    | cons c' rest' =>
      rw [List.flatMap_cons, List.flatMap_cons] at h
      obtain ⟨hblock, hrest⟩ := List.append_inj h (by rw [digitBlock_length, digitBlock_length])
      have hlater : 7 * rest.length = 7 * rest'.length := by
        simp only [List.length_cons] at hlength
        omega
      rw [digitBlock_injective hblock, ih hrest hlater]

def hexDigits (n : ℕ) : Text := (Nat.toDigits 16 n).leftpad 64 '0'

def knownText (name : Text) (promptHash n : ℕ) : Text :=
  name ++ '\x00' :: (hexDigits promptHash ++ '\x00' :: fixedText n)

def reviewHash : ℕ := 0xc97ace4c8fef2cee8fa0f3c9f52aab18dbd4f42438afe362ffb8f75ce4c04b84

def reportHash : ℕ := 0x845e91831319e89c4d656bdb80c278ac09a7230d61e5dfd2e1b1fbb436ac8917

def shipHash : ℕ := 0xe5d5b971139eefeb36d6edb9938fa246740c90da2003626487eb2d5d9646aec6

def knownDigests : List (Text × ℕ) :=
  [(['r', 'e', 'v', 'i', 'e', 'w'], reviewHash),
    (knownText ['r', 'e', 'v', 'i', 'e', 'w'] reviewHash 0,
      0xbd3b5a9833cf4428680d75092bf2bc054b61238e635939fa24d0ba1f27bd9f14),
    (knownText ['r', 'e', 'v', 'i', 'e', 'w'] reviewHash 200000000,
      0x9ee6318b5d7638eea1895385c0dbeaf0dd66b7614e3522806402eedf7e3bdbac),
    (knownText ['r', 'e', 'v', 'i', 'e', 'w'] reviewHash 850000000,
      0xc2fef537828c009e334fed21adac1ad698482689dc78346e5aeb558261d93e45),
    (knownText ['r', 'e', 'v', 'i', 'e', 'w'] reviewHash 1700000006600000,
      0x50be05c34b6b55adc1dd1d063bb2c5a38c9452f7af9cbe59136e33e31b565ba0),
    (['r', 'e', 'p', 'o', 'r', 't'], reportHash),
    (knownText ['r', 'e', 'p', 'o', 'r', 't'] reportHash 0,
      0xa17ee4f0e22f097ba8aff1be7ed3e5a62c8a2a97a0c5ca328cbbe160c16e112b),
    (knownText ['r', 'e', 'p', 'o', 'r', 't'] reportHash 600000000,
      0xcec8f9b0097ba346639bbb7a2518b15020e8fe2d78dce2c82b317cee3d6bcfc8),
    (knownText ['r', 'e', 'p', 'o', 'r', 't'] reportHash 87000000000,
      0x2e2b97f8cf02b4c5456cd3fb75010bd9a136c2deb216dec0e6e4689911fad5ff),
    (['s', 'h', 'i', 'p'], shipHash),
    (knownText ['r', 'e', 'l', 'e', 'a', 's', 'e'] shipHash 100000000,
      0x4013e3d3187fe82e6c052f870477fea2777753c4e10a141de13a717b7b4ff26b),
    (knownText ['r', 'e', 'l', 'e', 'a', 's', 'e'] shipHash 200000000,
      0xea2eeb866fdd6f21dc598214ee110a9fff083694eb4e4d65a4149695a6850d6b)]

/-- The digests of the known texts, and the code points of all others. -/
def keyLib : Stdlib where
  casefold := plainLib.casefold
  sequenceRatio := plainLib.sequenceRatio
  sha256 := fun t =>
    match knownDigests.find? fun known => decide (known.1 = t) with
    | some known => String.ofList (hexDigits known.2)
    | none => String.ofList (t.flatMap digitBlock)

theorem keyLib_cases (t : Text) :
    (∃ known ∈ knownDigests, known.1 = t ∧ keyLib.sha256 t = String.ofList (hexDigits known.2)) ∨
      keyLib.sha256 t = String.ofList (t.flatMap digitBlock) := by
  simp only [keyLib]
  cases hfind : knownDigests.find? fun known => decide (known.1 = t) with
  | none => exact Or.inr rfl
  | some known =>
    have hsame := List.find?_some hfind
    exact Or.inl ⟨known, List.mem_of_find?_eq_some hfind, of_decide_eq_true hsame, rfl⟩

theorem keyLib_digest : KeyDigest keyLib := by
  have hknown : ∀ known ∈ knownDigests, (hexDigits known.2).length = 64 ∧
      (hexDigits known.2).all isLowerHex = true := by decide +kernel
  have hdistinct : ∀ a ∈ knownDigests, ∀ b ∈ knownDigests, hexDigits a.2 = hexDigits b.2 →
      a.1 = b.1 := by
    decide +kernel
  have hother : ∀ known ∈ knownDigests, ∀ t : Text, hexDigits known.2 ≠ t.flatMap digitBlock := by
    intro known hmem t h
    have hlength := congrArg List.length h
    rw [(hknown known hmem).1, digitBlocks_length] at hlength
    omega
  constructor
  · intro a b h
    rcases keyLib_cases a with ⟨known, hmem, ha, hdigest⟩ | ha
    · rcases keyLib_cases b with ⟨known', hmem', hb, hdigest'⟩ | hb
      · rw [hdigest, hdigest'] at h
        rw [← ha, ← hb, hdistinct known hmem known' hmem' (String.ofList_injective h)]
      · rw [hdigest, hb] at h
        exact absurd (String.ofList_injective h) (hother known hmem b)
    · rcases keyLib_cases b with ⟨known', hmem', hb, hdigest'⟩ | hb
      · rw [ha, hdigest'] at h
        exact absurd (String.ofList_injective h).symm (hother known' hmem' a)
      · rw [ha, hb] at h
        exact digitBlocks_inj (String.ofList_injective h)
  · intro t c hc
    rcases keyLib_cases t with ⟨known, hmem, _, hdigest⟩ | ht
    · rw [hdigest, String.toList_ofList] at hc
      exact List.all_eq_true.mp (hknown known hmem).2 c hc
    · rw [ht, String.toList_ofList, List.mem_flatMap] at hc
      obtain ⟨x, _, hx⟩ := hc
      unfold digitBlock at hx
      rw [List.leftpad, List.mem_append] at hx
      have hdigit : c.isDigit = true := by
        rcases hx with hx | hx
        · rw [List.eq_of_mem_replicate hx]
          rfl
        · exact Nat.isDigit_of_mem_toDigits (by omega) (by omega) hx
      simp only [Char.isDigit, Bool.and_eq_true, decide_eq_true_eq] at hdigit
      simp only [isLowerHex, isDigit, Bool.or_eq_true, Bool.and_eq_true, decide_eq_true_eq]
      exact Or.inl hdigit

def reviewCommand : AddJob where
  name := "review"
  prompt := ['r', 'e', 'v', 'i', 'e', 'w']
  intervalMinutes := some 10
  name_valid := by decide +kernel
  prompt_valid := by decide +kernel
  interval_valid := by decide +kernel
  delay_valid := by decide +kernel
  cadence := by decide
  daily := by decide

def shipOnce : AddJob where
  name := "release"
  prompt := ['s', 'h', 'i', 'p']
  schedule := .once
  name_valid := by decide +kernel
  prompt_valid := by decide +kernel
  interval_valid := by decide +kernel
  delay_valid := reviewCommand.delay_valid
  cadence := by decide
  daily := by decide

def reviewJob : PromptJob where
  name := "review"
  prompt := ['r', 'e', 'v', 'i', 'e', 'w']
  intervalSeconds := 600
  name_present := by decide
  prompt_present := by decide +kernel
  interval_nonneg := by decide +kernel
  run_positive := by decide
  images_valid := by decide +kernel

theorem reviewCommand_job [Rounding] (now : Time) :
    commandJob reviewCommand none now = .ok reviewJob := by
  have hround : Rounding.round (10 * 60 : ℚ) = 600 := by
    rw [show (10 * 60 : ℚ) = ((600 : ℕ) : ℚ) by norm_num]
    exact_mod_cast Rounding.round_natCast (n := 600) (by omega)
  have hcadence : commandCadence reviewCommand none now = ⟨600, none, false, none⟩ :=
    congrArg (fun seconds => Cadence.mk seconds none false none) hround
  unfold commandJob
  dsimp only
  rw [hcadence]
  decide +kernel

end Sample

end Prompta.JobDeliveries
