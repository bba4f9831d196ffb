import Prompta.SingleSends

/-!
Leases and their threads. A reply that is unsettled under a lease of a process has a thread of
that process that holds the lease: a thread gives up a lease only in the move that settles the
reply, whatever the browser does, or when the write of its `finally` raises. This takes no
freshness of names, only that nobody else claims under the name of the process.
-/
namespace Prompta.HeldLeases

open Runs Tables Texts DisplayBlocks Schema ResponseStore ReplyStore Service ReplyDispatch
  ReplyDispatcher SingleSends
open RecoveryAttempts (Attempts)

/-- The name carries the process. -/
def OwnedBy (pid : ℕ) (owner : String) : Prop := ∃ name, owner = leaseName pid name

theorem ownedBy_ne_empty {pid : ℕ} {owner : String} (h : OwnedBy pid owner) : owner ≠ "" := by
  rintro rfl
  obtain ⟨name, h⟩ := h
  have hchars := congrArg String.toList h
  simp [leaseName] at hchars

theorem leaseName_digits (pid : ℕ) (name : String) :
    (leaseName pid name).toList.takeWhile (fun c => decide (c ≠ ':')) = Nat.toDigits 10 pid := by
  have hlist : (leaseName pid name).toList = Nat.toDigits 10 pid ++ ':' :: name.toList := by
    simp [leaseName, Nat.repr]
  have hdigits : ∀ c ∈ Nat.toDigits 10 pid, decide (c ≠ ':') = true := by
    intro c hc
    have hdigit := Nat.isDigit_of_mem_toDigits (by omega) (by omega) hc
    rw [decide_eq_true_eq]
    rintro rfl
    cases hdigit
  rw [hlist, List.takeWhile_append_of_pos hdigits]
  simp

theorem ownedBy_inj {pid pid' : ℕ} {owner : String} (h : OwnedBy pid owner)
    (h' : OwnedBy pid' owner) : pid = pid' := by
  obtain ⟨name, rfl⟩ := h
  obtain ⟨name', h'⟩ := h'
  have hdigits : Nat.toDigits 10 pid = Nat.toDigits 10 pid' := by
    rw [← leaseName_digits pid name, h', leaseName_digits]
  rw [← Nat.ofDigitChars_toDigits (b := 10) (n := pid) (by omega) (by omega), hdigits,
    Nat.ofDigitChars_toDigits (by omega) (by omega)]

/-- The stages between a thread's claim and the end of its `finally`. -/
def holdsClaim : Stage → Bool
  | .click => true
  | .abandon => true
  | .confirm => true
  | .acknowledge _ => true
  | .accept _ _ _ => true
  | .observe _ _ => true
  | .poll => true
  | .renew _ => true
  | .resultTools _ => true
  | .updateTools _ => true
  | .judge _ => true
  | .probe => true
  | .missing _ => true
  | .release _ => true
  | _ => false

def beforeClaim : Stage → Bool
  | .failed => false
  | .leaving => false
  | .release _ => false
  | stage => !holdsClaim stage

/-- The thread has claimed its reply and has yet to settle it. -/
structure Holds (t : Progress) : Prop where
  claimed : t.claimed = true
  unsettled : t.completed = false
  stage : holdsClaim t.stage = true

section Stages

variable {p : Libraries} {t : Thread} {r : Reading} {ok stopped : Bool}

@[simp] theorem holdsClaim_otherwise (otherwise : Otherwise) :
    holdsClaim otherwise.stage = true := by
  cases otherwise <;> rfl

@[simp] theorem holdsClaim_judged (round : Round) : holdsClaim (judged t r round) = true := by
  unfold judged
  repeat' split
  all_goals rfl

theorem polled_holds (h : Holds t.toProgress) : Holds (polled t r stopped) := by
  unfold polled
  repeat' split
  all_goals exact ⟨h.claimed, h.unsettled, rfl⟩

/-- A thread gives up its lease when it has settled the reply, and in its `finally`. -/
theorem resume_holds {next : Progress} (hresume : resume p t r ok stopped = some next)
    (h : Holds t.toProgress) : next.owner = t.owner ∧ (Holds next ∨
      (∃ raising, t.stage = .release raising) ∨
        ∃ answer otherwise, t.stage = .observe answer otherwise ∧ ok = true) := by
  have hstage := h.stage
  unfold resume at hresume
  cases ht : t.stage <;> rw [ht] at hstage <;> simp only [holdsClaim, reduceCtorEq] at hstage
    <;> simp only [ht] at hresume
  case poll =>
    obtain rfl := Option.some.inj hresume
    refine ⟨?_, Or.inl (polled_holds h)⟩
    unfold polled
    repeat' split
    all_goals rfl
  case release raising =>
    obtain rfl := Option.some.inj hresume
    exact ⟨rfl, Or.inr (Or.inl ⟨raising, rfl⟩)⟩
  case observe answer otherwise =>
    split at hresume
    · rename_i hok
      obtain rfl := Option.some.inj hresume
      exact ⟨rfl, Or.inr (Or.inr ⟨answer, otherwise, rfl, hok⟩)⟩
    · obtain rfl := Option.some.inj hresume
      exact ⟨rfl, Or.inl ⟨h.claimed, h.unsettled, by simp⟩⟩
  all_goals
    obtain rfl := Option.some.inj hresume
    refine ⟨rfl, Or.inl ⟨h.claimed, h.unsettled, ?_⟩⟩
    dsimp only
    repeat' split
    all_goals first
      | rfl
      | simp

/-- A raising operation on the stores takes the lease from no thread but one in its `finally`. -/
theorem interrupted_holds {stage : Stage} (hstage : interrupted t.stage = some stage)
    (h : Holds t.toProgress) :
    Holds { t.toProgress with stage := stage } ∨ ∃ raising, t.stage = .release raising := by
  have hheld := h.stage
  cases ht : t.stage <;> rw [ht] at hstage hheld
  case release raising => exact Or.inr ⟨raising, rfl⟩
  all_goals first
    | (cases hheld; done)
    | (cases hstage; done)
    | (obtain rfl := Option.some.inj hstage; exact Or.inl ⟨h.claimed, h.unsettled, rfl⟩)

theorem interrupted_beforeClaim {stage next : Stage} (h : interrupted stage = some next) :
    beforeClaim next = false := by
  unfold interrupted at h
  split at h
  all_goals first
    | (obtain rfl := Option.some.inj h; rfl)
    | cases h

/-- A thread gives itself no claim before it claims. -/
theorem resume_before {next : Progress} (hresume : resume p t r ok stopped = some next)
    (hbefore : beforeClaim next.stage = true) :
    beforeClaim t.stage = true ∧ next.claimed = t.claimed ∧ next.completed = t.completed := by
  unfold resume at hresume
  cases ht : t.stage <;> simp only [ht] at hresume
  case poll =>
    obtain rfl := Option.some.inj hresume
    unfold polled at hbefore
    repeat' split at hbefore
    all_goals cases hbefore
  case judge round =>
    obtain rfl := Option.some.inj hresume
    dsimp only at hbefore
    unfold judged at hbefore
    repeat' split at hbefore
    all_goals cases hbefore
  case accept answer responseParentId otherwise =>
    obtain rfl := Option.some.inj hresume
    cases otherwise <;> cases ok <;> cases hbefore
  case observe answer otherwise =>
    split at hresume
    all_goals
      obtain rfl := Option.some.inj hresume
      cases otherwise <;> cases hbefore
  all_goals
    repeat' split at hresume
    all_goals cases hresume
    all_goals first
      | exact ⟨rfl, rfl, rfl⟩
      | cases hbefore

end Stages

section Leases

variable {lib : Stdlib} {s : Store} {k owner : String}

def LeasedBy (owner : String) (row : ReplyRow) : Prop :=
  activeReply row.status = true ∧ row.leaseOwner = owner

theorem change_lease {call : Call} (howner : owner ≠ "") {row row' : ReplyRow}
    (h : ReplyChange lib s call row row') (hno : ¬claims call row.replyId owner)
    (hleased : LeasedBy owner row') : LeasedBy owner row := by
  obtain ⟨hactive, hlease⟩ := hleased
  have hnone : ∀ {lease : String}, lease = "" → lease = owner → LeasedBy owner row :=
    fun hempty hsame => absurd (hsame.symm.trans hempty) howner
  cases h with
  | failed h => cases hactive
  | rearmed h => cases hactive
  | authorized h => exact ⟨hactive, hlease⟩
  | bound => cases hactive
  | identified messageId h =>
    simp only [unidentified, Bool.and_eq_true, decide_eq_true_eq] at h
    exact hnone h.2 hlease
  | claimed claimant deadline hcall =>
    obtain rfl : claimant = owner := hlease
    exact absurd hcall hno
  | submitted _ _ hlive => exact ⟨(liveDispatch_iff.mp hlive).1, hlease⟩
  | accepted _ _ _ _ hlive => exact ⟨(liveDispatch_iff.mp hlive).1, hlease⟩
  | observed presented capture _ hlive =>
    obtain ⟨hrow, hpresented, -⟩ := liveDispatch_iff.mp hlive
    by_cases hcomplete : capture.status = .complete
    · exact hnone (by simp [observeRow, hcomplete]) hlease
    · refine ⟨hrow, ?_⟩
      rw [hpresented, ← hlease]
      simp [observeRow, hcomplete]
  | progress => exact ⟨hactive, hlease⟩
  | renewed => exact ⟨hactive, hlease⟩
  | ended => exact hnone rfl hlease
  | orphaned => exact hnone rfl hlease
  | detached => exact hnone rfl hlease
  | loaded => exact ⟨hactive, hlease⟩
  | recovered capture _ h =>
    simp only [detachedReply, Bool.and_eq_true, decide_eq_true_eq] at h
    exact hnone h.2 hlease
  | cancelled => exact hnone rfl hlease
  | stopped => exact hnone rfl hlease

/-- A lease was there before the call, or the call claims it. -/
theorem lease_before {call : Call} (howner : owner ≠ "") (hno : ¬claims call k owner)
    {row' : ReplyRow} (h : (Service.step lib s call).1.chats.replies.lookup k = some row')
    (hleased : LeasedBy owner row') :
    ∃ row, s.chats.replies.lookup k = some row ∧ LeasedBy owner row := by
  have hback : ∀ {a : ReplyRow}, a.replyId = k →
      Relation.ReflTransGen (ReplyChange lib s call) a row' → LeasedBy owner a := by
    intro a ha hpath
    by_contra hfree
    have hkept := reflTransGen_keeps (P := fun b : ReplyRow => b.replyId = k ∧ ¬LeasedBy owner b)
      ?_ hpath ⟨ha, hfree⟩
    · exact hkept.2 hleased
    · rintro b c hbc ⟨hb, hfree⟩
      refine ⟨hbc.replyId_eq.trans hb, fun hc => hfree ?_⟩
      exact change_lease howner hbc (by rw [hb]; exact hno) hc
  rcases (step_replies lib s call).lookup_old
      (fun _ _ h => h.replyId_eq) h with ⟨row, hrow, hpath⟩ | ⟨-, a, hnew, ha, hpath⟩
  · exact ⟨row, hrow, hback (Table.lookup_key hrow) hpath⟩
  · exfalso
    obtain ⟨hactive, -⟩ := hback ha hpath
    cases hnew with
    | prepared => cases hactive
    | followup _ _ _ status _ _ _ _ hstatus =>
      rcases hstatus with ⟨hstatus, -⟩ | hstatus <;> subst hstatus <;> cases hactive

/-- A finished dispatch has no lease. -/
theorem finish_ends {now : Time} {uncertain : Bool} {row' : ReplyRow}
    (h : (Service.step lib s ⟨.reply (.finish k owner uncertain), now⟩).1.chats.replies.lookup k =
      some row') : ¬LeasedBy owner row' := by
  rintro ⟨hactive, hlease⟩
  change (ReplyStore.finish s.chats k owner uncertain now).1.replies.lookup k = some row' at h
  unfold ReplyStore.finish updateReply at h
  dsimp only at h
  rw [Table.lookup_updateAt_self] at h
  obtain ⟨row, hrow, rfl⟩ := Option.map_eq_some_iff.mp h
  split at hactive
  · rw [(endedReply_not_active uncertain now row).2] at hactive
    cases hactive
  · rename_i hother
    rw [if_neg hother] at hlease
    simp [hactive, hlease] at hother

/-- A complete answer settles the reply. -/
theorem observe_ends {now : Time} {answer : Answer} {row' : ReplyRow}
    (hok : (Service.step lib s ⟨.reply (.observe k owner answer.capture), now⟩).2 = .changed true)
    (h : (Service.step lib s ⟨.reply (.observe k owner answer.capture), now⟩).1.chats.replies.lookup
      k = some row') : ¬LeasedBy owner row' := by
  rintro ⟨hactive, -⟩
  change (ReplyStore.observe lib s.chats k owner answer.capture now).1.replies.lookup k =
    some row' at h
  have hok : (ReplyStore.observe lib s.chats k owner answer.capture now).2 = true :=
    Output.changed.inj hok
  unfold ReplyStore.observe at h hok
  dsimp only at h hok
  split at hok
  · cases hok
  · rename_i row hrow
    rw [hrow] at h
    dsimp only at h
    split at hok
    · cases hok
    · rename_i hguard
      rw [if_neg hguard] at h
      obtain ⟨hlookup, howned⟩ := Option.filter_eq_some_iff.mp hrow
      unfold updateReply at h
      dsimp only at h
      rw [Table.lookup_updateAt_self, hlookup] at h
      simp only [Option.map_some, howned, if_true] at h
      obtain rfl := Option.some.inj h
      simp [observeRow, answer.complete, activeReply] at hactive

/-- A refused claim leaves the store. -/
theorem claimReply_refused {deadline now : Time} {fireAndForget : Bool} {maxActive : Option ℕ}
    (h : (DeliveryQueue.claimReply s k owner deadline fireAndForget maxActive now).2 = false) :
    (DeliveryQueue.claimReply s k owner deadline fireAndForget maxActive now).1 = s := by
  unfold DeliveryQueue.claimReply claim at h ⊢
  split
  · rfl
  · rename_i hcapacity
    rw [if_neg hcapacity] at h
    dsimp only at h ⊢
    split
    · rfl
    · rename_i hguard
      rw [if_neg hguard] at h
      rw [updateReply_refused _ _ _ _ _ h]

end Leases

theorem succeeded_iff {output : Output} : succeeded output = true ↔ output = .changed true := by
  cases output <;> simp [succeeded]

section Worlds

variable {p : Libraries} {w : World} {pid : ℕ} {k : String}

/-- A thread claims for itself only, and in one stage. -/
theorem action_claims {t : Thread} {r : Reading} {action : Action} {now : Time} {k owner : String}
    (h : ReplyDispatcher.action t r = some action) (hclaims : claims ⟨action, now⟩ k owner) :
    t.stage = .claim ∧ r.raises = false ∧ k = t.replyId ∧ owner = t.owner := by
  have hqueue : ∀ call, action = .reply call → (∀ k o deadline, call ≠ .claim k o deadline) →
      False := by
    rintro call rfl hcall
    rcases hclaims with ⟨deadline, h⟩ | ⟨deadline, fireAndForget, maxActive, h⟩
    · exact hcall _ _ _ (Action.reply.inj h)
    · cases h
  unfold ReplyDispatcher.action at h
  cases ht : t.stage <;> simp only [ht] at h
  case claim =>
    split at h
    · cases h
    · rename_i hraises
      obtain rfl := Option.some.inj h
      rcases hclaims with ⟨deadline, h⟩ | ⟨deadline, fireAndForget, maxActive, h⟩
      · cases h
      · cases h
        exact ⟨rfl, by simpa using hraises, rfl, rfl⟩
  case resultTools round =>
    split at h
    · obtain ⟨c, -, rfl⟩ := Option.map_eq_some_iff.mp h
      exact (hqueue _ rfl (by simp)).elim
    · cases h
  case updateTools round =>
    split at h
    · cases h
    · obtain ⟨u, -, rfl⟩ := Option.map_eq_some_iff.mp h
      exact (hqueue _ rfl (by simp)).elim
  all_goals
    repeat' split at h
    all_goals first
      | (obtain rfl := Option.some.inj h; exact (hqueue _ rfl (by simp)).elim)
      | cases h

theorem mainAction_claims {d : Dispatcher} {r : Reading} {action : Action} {now : Time}
    {k owner : String} (h : mainAction d r = some action) : ¬claims ⟨action, now⟩ k owner := by
  rintro (⟨deadline, hclaim⟩ | ⟨deadline, fireAndForget, maxActive, hclaim⟩)
  all_goals
    obtain rfl : action = _ := hclaim
    unfold mainAction at h
    repeat' split at h
    all_goals cases h

theorem recoveryAction_claims {v : Recovery} {action : Action} {now : Time} {k owner : String}
    (h : recoveryAction v = some action) : ¬claims ⟨action, now⟩ k owner := by
  rintro (⟨deadline, hclaim⟩ | ⟨deadline, fireAndForget, maxActive, hclaim⟩)
  all_goals
    obtain rfl : action = _ := hclaim
    unfold recoveryAction at h
    repeat' split at h
    all_goals cases h

theorem attempted_some {r : Reading} {action : Option Action} {call : Call}
    (h : attempted r action = some call) :
    r.storeFails = false ∧ ∃ a, action = some a ∧ call = ⟨a, r.now⟩ := by
  unfold attempted at h
  split at h
  · cases h
  · rename_i hfails
    obtain ⟨a, ha, rfl⟩ := Option.map_eq_some_iff.mp h
    exact ⟨by simpa using hfails, a, ha, rfl⟩

/-- A claim in a world is made by the service or by a thread in its claim stage. -/
theorem storeCall_claims {m : Move} {call : Call} {owner : String}
    (h : storeCall w m = some call) (hclaims : claims call k owner) :
    m = .service call ∨ ∃ q t r, m = .dispatch q k r ∧
      (w.dispatchers q).threads.lookup k = some t ∧ t.stage = .claim ∧ r.raises = false ∧
        r.storeFails = false ∧ owner = t.owner := by
  cases m with
  | service other =>
    obtain rfl := Option.some.inj h
    exact Or.inl rfl
  | main q r =>
    obtain ⟨-, action, haction, rfl⟩ := attempted_some h
    exact absurd hclaims (mainAction_claims haction)
  | dispatch q replyId r =>
    obtain ⟨t, hlookup, hcall⟩ := Option.bind_eq_some_iff.mp h
    obtain ⟨hfails, action, haction, rfl⟩ := attempted_some hcall
    obtain ⟨hstage, hraises, rfl, howner⟩ := action_claims haction hclaims
    obtain rfl : t.replyId = replyId := Table.lookup_key hlookup
    exact Or.inr ⟨q, t, r, rfl, hlookup, hstage, hraises, hfails, howner⟩
  | requested q sendId r =>
    obtain ⟨v, -, hcall⟩ := Option.bind_eq_some_iff.mp h
    obtain ⟨-, action, haction, rfl⟩ := attempted_some hcall
    exact absurd hclaims (recoveryAction_claims haction)
  | scheduled q sendId r =>
    obtain ⟨v, -, hcall⟩ := Option.bind_eq_some_iff.mp h
    obtain ⟨-, action, haction, rfl⟩ := attempted_some hcall
    exact absurd hclaims (recoveryAction_claims haction)
  | _ => cases h

/-- What every thread of a process is: it names itself after the process, and it carries no
claim before it claims. -/
structure Proper (pid : ℕ) (t : Thread) : Prop where
  pid_eq : t.pid = pid
  owner : t.owner = "" ∨ OwnedBy pid t.owner
  unclaimed : beforeClaim t.stage = true → t.claimed = false ∧ t.completed = false

theorem resume_owner {t : Thread} {r : Reading} {ok stopped : Bool} {next : Progress}
    (h : resume p t r ok stopped = some next) :
    next.owner = t.owner ∨ next.owner = leaseName t.pid r.name := by
  unfold resume at h
  cases ht : t.stage <;> simp only [ht] at h
  case poll =>
    obtain rfl := Option.some.inj h
    unfold polled
    left
    repeat' split
    all_goals rfl
  case slot =>
    split at h
    · obtain rfl := Option.some.inj h
      exact Or.inr rfl
    · obtain rfl := Option.some.inj h
      exact Or.inl rfl
  case claim =>
    repeat' split at h
    all_goals
      obtain rfl := Option.some.inj h
      exact Or.inl rfl
  case observe =>
    split at h
    all_goals
      obtain rfl := Option.some.inj h
      exact Or.inl rfl
  all_goals first
    | (obtain rfl := Option.some.inj h; exact Or.inl rfl)
    | cases h

/-- A thread stays proper through its own move. -/
theorem moveOn_proper {t t' : Thread} {r : Reading} {ok stopped : Bool} (h : Proper pid t)
    (hnext : moveOn p t r ok stopped = some t'.toProgress) (hsame : t'.pid = t.pid) :
    Proper pid t' where
  pid_eq := hsame.trans h.pid_eq
  owner := by
    rcases moveOn_cases hnext with ⟨stage, -, -, hsame⟩ | ⟨hresume, -⟩
    · rw [hsame]
      exact h.owner
    rcases resume_owner hresume with howner | howner
    · rw [howner]
      exact h.owner
    · exact Or.inr ⟨r.name, by rw [howner, h.pid_eq]⟩
  unclaimed hbefore := by
    rcases moveOn_cases hnext with ⟨stage, hstage, -, hsame⟩ | ⟨hresume, -⟩
    · rw [hsame] at hbefore
      rw [interrupted_beforeClaim hstage] at hbefore
      cases hbefore
    obtain ⟨hold, hclaimed, hcompleted⟩ := resume_before hresume hbefore
    rw [hclaimed, hcompleted]
    exact h.unclaimed hold

def AllProper (w : World) : Prop :=
  ∀ pid k t, (w.dispatchers pid).threads.lookup k = some t → Proper pid t

theorem step_proper (hw : AllProper w) (m : Move) : AllProper (step p w m).1 := by
  intro pid k t h
  rcases thread_after h with ⟨hold, -⟩ | hnew | ⟨t₀, r, hmoves⟩
  · exact hw pid k t hold
  · refine ⟨hnew.pid_eq, Or.inl ?_, fun _ => ?_⟩
    · rw [hnew.fresh]
    · rw [hnew.fresh]
      exact ⟨rfl, rfl⟩
  · exact moveOn_proper (hw pid k t₀ hmoves.lookup) hmoves.resumed hmoves.same.1

/-- A thread stays as it is while it rests and its process lives. -/
theorem thread_kept {m : Move} {t : Thread} (h : (w.dispatchers pid).threads.lookup k = some t)
    (hkill : m ≠ .kill pid) (hrest : ∀ r, m ≠ .dispatch pid k r) :
    ((step p w m).1.dispatchers pid).threads.lookup k = some t := by
  change (moved p w (answerOf p w m) (grantedTo w m) m pid).threads.lookup k = some t
  have hother : ∀ {q : ℕ} {d : Dispatcher}, d.threads = (w.dispatchers q).threads →
      (Function.update w.dispatchers q d pid).threads.lookup k = some t := by
    intro q d hd
    by_cases hq : pid = q
    · subst hq
      rw [Function.update_self, hd]
      exact h
    · rwa [Function.update_of_ne hq]
  cases m with
  | service call => exact h
  | reads call => exact h
  | main q r =>
    dsimp only [moved]
    rcases moveMain_threads (w := w) q (w.dispatchers q) r (answerOf p w (.main q r)) with
      hsame | ⟨left, selected, turn, hmain, hnew⟩
    · exact hother hsame
    · by_cases hq : pid = q
      · subst hq
        rw [Function.update_self, hnew]
        by_cases hk : k = turn.replyId
        · subst hk
          rw [Table.insertNew_eq_self]
          · exact h
          · change (w.dispatchers pid).threads.lookup turn.replyId ≠ none
            rw [h]
            simp
        · exact (Table.lookup_insertNew_ne (w.dispatchers pid).threads
            { pid := pid, turn := turn } hk).trans h
      · rwa [Function.update_of_ne hq]
  | dispatch q replyId r =>
    dsimp only [moved]
    cases hlookup : (w.dispatchers q).threads.lookup replyId with
    | none => exact h
    | some t₀ =>
      dsimp only
      by_cases hq : pid = q
      · subst hq
        have hk : k ≠ replyId := by
          rintro rfl
          exact hrest r rfl
        rw [Function.update_self]
        cases moveOn p t₀ r (succeeded (answerOf p w (.dispatch pid replyId r)) ||
            grantedTo w (.dispatch pid replyId r)) (isStopped w.store replyId) with
        | none =>
          dsimp only [Dispatcher.place]
          rw [Table.lookup_delete, h]
          simp [Table.lookup_key h, hk]
        | some progress =>
          dsimp only [Dispatcher.place]
          rwa [Table.lookup_updateAt_ne _ _ _ _ _ _ hk]
      · rwa [Function.update_of_ne hq]
  | request q sendId => exact hother (request_threads _ _)
  | requested q sendId r =>
    dsimp only [moved]
    cases (w.dispatchers q).requested.lookup sendId with
    | none => exact h
    | some v => exact hother (placeRequested_threads _ _ _)
  | scheduled q sendId r =>
    dsimp only [moved]
    cases (w.dispatchers q).scheduled.lookup sendId with
    | none => exact h
    | some v => exact hother (placeScheduled_threads _ _ _)
  | kill q =>
    have hq : pid ≠ q := by
      rintro rfl
      exact hkill rfl
    dsimp only [moved]
    rwa [Function.update_of_ne hq]

/-- The thread in its world after its own move. -/
theorem thread_moves {t : Thread} {r : Reading} {next : Progress}
    (h : (w.dispatchers pid).threads.lookup k = some t)
    (hnext : moveOn p t r (succeeded (answerOf p w (.dispatch pid k r)) ||
      grantedTo w (.dispatch pid k r)) (isStopped w.store k) = some next) :
    ((step p w (.dispatch pid k r)).1.dispatchers pid).threads.lookup k =
      some { t with toProgress := next } := by
  change (moved p w (answerOf p w (.dispatch pid k r)) (grantedTo w (.dispatch pid k r))
    (.dispatch pid k r) pid).threads.lookup k = _
  dsimp only [moved]
  rw [h]
  dsimp only
  rw [Function.update_self, hnext]
  dsimp only [Dispatcher.place]
  rw [Table.lookup_updateAt_self, h]
  rfl

/-- Every unsettled reply under a lease of the process has a thread that holds it, or its lease
was lost. -/
def Held (pid : ℕ) (lost : String → String → Prop) (w : World) : Prop :=
  ∀ k row, w.store.chats.replies.lookup k = some row → activeReply row.status = true →
    OwnedBy pid row.leaseOwner → (∃ t, (w.dispatchers pid).threads.lookup k = some t ∧
      t.owner = row.leaseOwner ∧ Holds t.toProgress) ∨ lost k row.leaseOwner

/-- The process is not killed, and nobody else claims under its name. -/
def Undisturbed (pid : ℕ) (_ : World) (m : Move) : Prop :=
  m ≠ .kill pid ∧ ∀ call, m = .service call → ∀ k owner, claims call k owner → ¬OwnedBy pid owner

/-- The write of a thread's `finally` raises: the thread ends, and the lease stays. -/
def LosesLease (pid : ℕ) (w : World) (m : Move) (k owner : String) : Prop :=
  ∃ t r raising, m = .dispatch pid k r ∧ (w.dispatchers pid).threads.lookup k = some t ∧
    r.storeFails = true ∧ t.stage = .release raising ∧ t.owner = owner

/-- A thread that is in its `finally` or has the answer stored settles its reply. -/
theorem settles {t : Thread} {r : Reading} {row' : ReplyRow} {next : Progress}
    (h : (w.dispatchers pid).threads.lookup k = some t) (hholds : Holds t.toProgress)
    (hresume : resume p t r (succeeded (answerOf p w (.dispatch pid k r)) ||
      grantedTo w (.dispatch pid k r)) (isStopped w.store k) = some next)
    (hstores : r.storeFails = true → interrupted t.stage = none)
    (hrow' : (step p w (.dispatch pid k r)).1.store.chats.replies.lookup k = some row')
    (hleased : LeasedBy t.owner row') : next.owner = t.owner ∧ Holds next := by
  have hkey : t.replyId = k := Table.lookup_key h
  have hcall : storeCall w (.dispatch pid k r) = attempted r (ReplyDispatcher.action t r) := by
    simp [storeCall, h]
  have hattempted : ∀ stage, interrupted t.stage = some stage →
      storeCall w (.dispatch pid k r) =
        (ReplyDispatcher.action t r).map fun action => ⟨action, r.now⟩ := by
    intro stage hstage
    have hfails : ¬r.storeFails = true := by
      intro hfails
      rw [hstores hfails] at hstage
      cases hstage
    rw [hcall, attempted, if_neg hfails]
  obtain ⟨howner, hnext | ⟨raising, hstage⟩ | ⟨answer, otherwise, hstage, hok⟩⟩ :=
    resume_holds hresume hholds
  · exact ⟨howner, hnext⟩
  · exfalso
    have haction : ReplyDispatcher.action t r = some (.reply (.finish k t.owner true)) := by
      simp [ReplyDispatcher.action, hstage, hholds.claimed, hholds.unsettled, hkey]
    rw [step_store, hattempted .failed (by rw [hstage]; rfl), haction] at hrow'
    exact @finish_ends p.lib _ _ _ _ _ _ hrow' hleased
  · exfalso
    have haction : ReplyDispatcher.action t r =
        some (.reply (.observe k t.owner answer.capture)) := by
      simp [ReplyDispatcher.action, hstage, hkey]
    have hgranted : grantedTo w (.dispatch pid k r) = false := by
      simp [grantedTo, slotCall, h, hstage, Stage.isSlot, reserve]
    have hstored := hattempted (.release true) (by rw [hstage]; rfl)
    rw [hgranted, Bool.or_false] at hok
    unfold answerOf at hok
    rw [hstored, haction] at hok
    rw [step_store, hstored, haction] at hrow'
    exact observe_ends (succeeded_iff.mp hok) hrow' hleased

/-- A thread that held the lease before the move holds it afterwards, if there still is one, or
it has just lost it. -/
theorem holder_after {m : Move} {t : Thread} {row' : ReplyRow}
    (h : (w.dispatchers pid).threads.lookup k = some t) (hkill : m ≠ .kill pid)
    (hholds : Holds t.toProgress)
    (hrow' : (step p w m).1.store.chats.replies.lookup k = some row')
    (hleased : LeasedBy t.owner row') :
    (∃ t', ((step p w m).1.dispatchers pid).threads.lookup k = some t' ∧ t'.owner = t.owner ∧
      Holds t'.toProgress) ∨ LosesLease pid w m k t.owner := by
  by_cases hmove : ∃ r, m = .dispatch pid k r
  · obtain ⟨r, rfl⟩ := hmove
    cases hnext : moveOn p t r (succeeded (answerOf p w (.dispatch pid k r)) ||
        grantedTo w (.dispatch pid k r)) (isStopped w.store k) with
    | none =>
      exfalso
      have hstage := hholds.stage
      unfold moveOn at hnext
      split at hnext
      · cases hnext
      unfold resume at hnext
      cases ht : t.stage <;> simp only [ht] at hnext
      case leaving =>
        rw [ht] at hstage
        cases hstage
      all_goals
        repeat' split at hnext
        all_goals cases hnext
    | some next =>
      rcases moveOn_cases hnext with ⟨stage, hstage, hfails, rfl⟩ | ⟨hresume, hstores⟩
      · rcases interrupted_holds hstage hholds with hheld | ⟨raising, hrelease⟩
        · exact Or.inl ⟨_, thread_moves h hnext, rfl, hheld⟩
        · exact Or.inr ⟨t, r, raising, rfl, h, hfails, hrelease, rfl⟩
      · obtain ⟨howner, hheld⟩ := settles h hholds hresume hstores hrow' hleased
        exact Or.inl ⟨{ t with toProgress := next }, thread_moves h hnext, howner, hheld⟩
  · have hrest : ∀ r, m ≠ .dispatch pid k r := fun r hr => hmove ⟨r, hr⟩
    exact Or.inl ⟨t, thread_kept h hkill hrest, rfl, hholds⟩

/-- One move: a lease comes with the thread that claims it, and goes with its last write. -/
theorem step_held {lost : String → String → Prop} {m : Move} (hproper : AllProper w)
    (hheld : Held pid lost w) (hm : Undisturbed pid w m) :
    Held pid (fun k owner => lost k owner ∨ LosesLease pid w m k owner) (step p w m).1 := by
  intro k row' hrow' hactive howned
  have hold : (∃ row, w.store.chats.replies.lookup k = some row ∧
      LeasedBy row'.leaseOwner row) → (∃ t', ((step p w m).1.dispatchers pid).threads.lookup k =
        some t' ∧ t'.owner = row'.leaseOwner ∧ Holds t'.toProgress) ∨
          (lost k row'.leaseOwner ∨ LosesLease pid w m k row'.leaseOwner) := by
    rintro ⟨row, hrow, hrowActive, hlease⟩
    rcases hheld k row hrow hrowActive (by rw [hlease]; exact howned) with
      ⟨t, ht, howner, hholds⟩ | hlost
    · rw [hlease] at howner
      rcases holder_after (p := p) ht hm.1 hholds hrow' ⟨hactive, howner.symm⟩ with
        ⟨t', ht', howner', hholds'⟩ | hlost
      · exact Or.inl ⟨t', ht', howner'.trans howner, hholds'⟩
      · rw [howner] at hlost
        exact Or.inr (Or.inr hlost)
    · rw [hlease] at hlost
      exact Or.inr (Or.inl hlost)
  cases hcall : storeCall w m with
  | none =>
    rw [step_store, hcall] at hrow'
    exact hold ⟨row', hrow', hactive, rfl⟩
  | some call =>
    by_cases hclaims : claims call k row'.leaseOwner
    · rcases storeCall_claims hcall hclaims with hservice | ⟨q, t, r, hmove, ht, hstage, hraises,
        hfails, howner⟩
      · exact absurd howned (hm.2 call hservice k _ hclaims)
      · subst hmove
        have hq : q = pid := by
          rcases (hproper q k t ht).owner with hempty | hown
          · exact absurd (howner.trans hempty) (ownedBy_ne_empty howned)
          · exact ownedBy_inj hown (by rw [← howner]; exact howned)
        subst hq
        have hkey : t.replyId = k := Table.lookup_key ht
        have hclaim : call = ⟨.queue (.claimReply k t.owner (r.now + maxOwnedTabAgeSeconds)
            r.fireAndForget r.maxActive), r.now⟩ := by
          simp only [storeCall, attempted, ht, ReplyDispatcher.action, hstage, hraises, hfails,
            hkey, Option.bind_some, if_false, Bool.false_eq_true, Option.map_some,
            Option.some.injEq] at hcall
          exact hcall.symm
        by_cases hok : succeeded (answerOf p w (.dispatch q k r)) = true
        · obtain ⟨hclaimed, hcompleted⟩ := (hproper q k t ht).unclaimed (by rw [hstage]; rfl)
          have hresume : moveOn p t r (succeeded (answerOf p w (.dispatch q k r)) ||
              grantedTo w (.dispatch q k r)) (isStopped w.store k) =
                some { t.toProgress with claimed := true, stage := .click } := by
            simp [moveOn, resume, interrupted, hstage, hraises, hfails, hok]
          exact Or.inl ⟨_, thread_moves ht hresume, howner.symm, rfl, hcompleted, rfl⟩
        · rw [step_store, hcall, hclaim] at hrow'
          unfold answerOf at hok
          rw [hcall, hclaim] at hok
          have hsame := claimReply_refused (Bool.eq_false_iff.mpr hok)
          refine hold ⟨row', ?_, hactive, rfl⟩
          rw [← hsame]
          exact hrow'
    · rw [step_store, hcall] at hrow'
      exact hold (lease_before (ownedBy_ne_empty howned) hclaims hrow' ⟨hactive, rfl⟩)

/-- Over a run, the leases that are lost are those that some move of it lost. -/
theorem run_held (run : List Move) {lost : String → String → Prop} (hproper : AllProper w)
    (hheld : Held pid lost w) (hrun : Meets (step p) (Undisturbed pid) w run) :
    Held pid (fun k owner => lost k owner ∨
      ∃ e ∈ events (step p) w run, LosesLease pid e.pre e.input k owner)
      (final (step p) w run) := by
  induction run generalizing w lost with
  | nil =>
    intro k row hrow hactive howned
    rcases hheld k row hrow hactive howned with hholder | hlost
    · exact Or.inl hholder
    · exact Or.inr (Or.inl hlost)
  | cons m run ih =>
    have hlater := ih (step_proper (p := p) hproper m) (step_held hproper hheld hrun.1) hrun.2
    intro k row hrow hactive howned
    rcases hlater k row hrow hactive howned with hholder | (hlost | hnow) | ⟨e, he, hlost⟩
    · exact Or.inl hholder
    · exact Or.inr (Or.inl hlost)
    · exact Or.inr (Or.inr ⟨_, List.mem_cons_self, hnow⟩)
    · exact Or.inr (Or.inr ⟨e, List.mem_cons_of_mem _ he, hlost⟩)

end Worlds

end Prompta.HeldLeases
