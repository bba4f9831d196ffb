import Prompta.ThreadPacing

/-!
The rows beside recovery. Threads read pages, save what they saw and drop requests, dispatchers
take slots and chats are stopped, in any interleaving; a row stays as it is unless some thread
opened its page or its own chat was stopped.
-/
namespace Prompta.Bystanders

open Tables Texts Schema DisplayBlocks ResponseStore Runs
open HistoryRecovery RecoveryThreads
open RecoveryTurns hiding step Output KeepsNames
open ThreadPacing (opened pageOf)

def saves (t : Turn) : Option PageRead :=
  match t.stage with
  | .noting page _ => some page
  | .saving page _ => some page
  | _ => none

theorem choosing_saves {next : Option Turn} (h : stillChoosing next = true) {t : Turn}
    (ht : next = some t) : saves t = none := by
  subst ht
  obtain ⟨call, requests, stage⟩ := t
  cases stage <;> first | rfl | cases h

theorem goto_saves {t t' : Turn} {stage : Stage} (h : t.goto stage = some t') :
    saves t' = saves { t with stage := stage } := by
  rw [goto_some h]

/-- A turn saves the page that it opened. -/
theorem advance_saves {lib : Stdlib} {s : RecoveryState} {t t' : Turn} {page : PageRead}
    (h : (advance lib s t).2 = some t') (hsaves : saves t' = some page) :
    saves t = some page ∨ opened t = some page := by
  obtain ⟨call, requests, stage⟩ := t
  have hnone : saves t' = none → saves ⟨call, requests, stage⟩ = some page ∨
      opened ⟨call, requests, stage⟩ = some page := by
    intro hnot
    rw [hnot] at hsaves
    cases hsaves
  unfold advance at h
  cases stage with
  | pauseCheck =>
    dsimp only at h
    split at h
    · cases h
    · exact hnone (goto_saves h)
  | paceCheck =>
    dsimp only at h
    split at h
    · cases h
    · exact hnone (goto_saves h)
  | listing => exact hnone (goto_saves (t := ⟨call, turnRequests s call, .listing⟩) h)
  | asking search => exact hnone (choosing_saves (asked_choosing s _ search) h)
  | missing target search =>
    dsimp only at h
    split at h <;> exact hnone (goto_saves h)
  | dropping target search => exact hnone (goto_saves h)
  | counting requested =>
    dsimp only at h
    split at h <;> exact hnone (goto_saves h)
  | preferring => exact hnone (choosing_saves (preferred_choosing s _) h)
  | pinning original => exact hnone (choosing_saves (orAutomatic_choosing _ _) h)
  | automatic queries found => exact hnone (choosing_saves (queried_choosing s _ found queries) h)
  | reserving c manual =>
    dsimp only at h
    split at h
    · exact hnone (goto_saves h)
    · cases h
  | targeting c manual => exact hnone (goto_saves h)
  | probing page' =>
    dsimp only at h
    rw [goto_saves h] at hsaves
    unfold probed at hsaves
    split at hsaves
    · cases hsaves
    · rename_i huuid
      split at hsaves
      · cases hsaves
      · cases hsaves
      · cases hsaves
      · refine Or.inr ?_
        rw [← hsaves]
        exact if_pos (by simpa using huuid)
  | noting page' result =>
    cases result with
    | none => exact hnone (goto_saves h)
    | some result =>
      rw [goto_saves h] at hsaves
      exact Or.inl hsaves
  | saving page' capture =>
    dsimp only at h
    split at h <;> exact hnone (goto_saves h)
  | checking page' =>
    dsimp only at h
    split at h <;> exact hnone (goto_saves h)
  | clearing page' => cases h
  | failures page' => exact hnone (goto_saves h)
  | pausing page' failures => exact hnone (goto_saves h)
  | scheduling page' => exact hnone (goto_saves h)
  | deferring page' => cases h

/-- A transaction of a turn touches the row of the page it saves, and no other. -/
theorem advance_rows (lib : Stdlib) (s : RecoveryState) (t : Turn) :
    ((advance lib s t).1.chats.results = s.chats.results ∧
      (advance lib s t).1.chats.replies = s.chats.replies) ∨
    ∃ page, saves t = some page ∧
      OnlyTouches page.candidate.branch s.chats (advance lib s t).1.chats := by
  obtain ⟨call, requests, stage⟩ := t
  unfold advance
  cases stage with
  | reserving c manual =>
    dsimp only
    split <;> exact Or.inl ⟨rfl, rfl⟩
  | noting page result =>
    refine Or.inr ⟨page, rfl, ?_⟩
    cases result with
    | none => exact OnlyTouches.refl _ _
    | some result => exact OnlyTouches.noteLoaded s.chats page.candidate result call.now
  | saving page capture =>
    exact Or.inr ⟨page, rfl, OnlyTouches.saveRead lib s.chats page.candidate capture call.now⟩
  | clearing page =>
    dsimp only
    cases page.manualTarget <;> exact Or.inl ⟨rfl, rfl⟩
  | deferring page =>
    dsimp only
    cases page.manualTarget <;> exact Or.inl ⟨rfl, rfl⟩
  | _ => exact Or.inl ⟨rfl, rfl⟩

/-- No page that a thread is about to save is of a branch outside `P`. -/
def Spares (P : Branch → Prop) (w : World) : Prop :=
  ∀ i t page, w.threads i = some t → saves t = some page → P page.candidate.branch

theorem spares_put {P : Branch → Prop} {w : World} (h : Spares P w) (thread : ℕ)
    {next : Option Turn}
    (hnext : ∀ t page, next = some t → saves t = some page → P page.candidate.branch) :
    Spares P (w.put thread next) := by
  intro i t page ht hsaves
  by_cases hi : i = thread
  · subst hi
    rw [put_self] at ht
    exact hnext t page ht hsaves
  · rw [put_ne w next hi] at ht
    exact h i t page ht hsaves

theorem raised_saves {t t' : Turn} (h : raised t = some t') : saves t' = none := by
  obtain ⟨call, requests, stage⟩ := t
  cases stage <;> cases h <;> rfl

/-- A thread saves only the page that it has opened. -/
theorem spares_step (lib : Stdlib) {P : Branch → Prop} {w : World} (call : ThreadCall)
    (hpage : ∀ i turn page,
      pageOf ⟨w, call, (step lib w call).2, (step lib w call).1⟩ = some (i, turn, page) →
        P page.candidate.branch)
    (h : Spares P w) : Spares P (step lib w call).1 := by
  cases call with
  | begin thread call =>
    unfold step
    cases hthread : w.threads thread with
    | some t => simpa only [hthread] using h
    | none =>
      simp only [hthread]
      apply spares_put h
      intro t page ht hsaves
      unfold started at ht
      split at ht
      · cases ht
      · obtain rfl := Option.some.inj ht
        cases hsaves
  | advance thread =>
    cases hthread : w.threads thread with
    | none =>
      unfold step
      simpa only [hthread] using h
    | some t =>
      have hstep : (step lib w (.advance thread)).1 =
          { w with db := (advance lib w.db t).1 }.put thread (advance lib w.db t).2 := by
        unfold step
        simp only [hthread]
      rw [hstep]
      refine spares_put (w := { w with db := (advance lib w.db t).1 }) h thread ?_
      intro t' page ht' hsaves
      rcases advance_saves ht' hsaves with hheld | hopened
      · exact h thread t page hthread hheld
      · refine hpage thread t.call page ?_
        simp only [pageOf, hthread, Option.bind_some, hopened, Option.map_some]
  | fail thread =>
    apply spares_put h
    intro t' page ht' hsaves
    obtain ⟨t, _, hraised⟩ := Option.bind_eq_some_iff.mp ht'
    rw [raised_saves hraised] at hsaves
    cases hsaves
  | kill thread =>
    apply spares_put h
    intro t page ht
    cases ht
  | beside call => exact h

/-- The call opens the page of the run, or stops its chat. -/
def NamesRun (e : Event World ThreadCall Unit) (k : String) : Prop :=
  (∃ i turn page, pageOf e = some (i, turn, page) ∧ page.candidate.branch = .original k) ∨
    ∃ now, e.input = .beside (.stop k now)

/-- The call opens the page of the reply, or stops its chat. -/
def NamesReply (e : Event World ThreadCall Unit) (k : String) : Prop :=
  (∃ i turn page parentId prompt, pageOf e = some (i, turn, page) ∧
      page.candidate.branch = .reply k parentId prompt) ∨
    ∃ r now, e.pre.db.chats.replies.lookup k = some r ∧ e.input = .beside (.stop r.sendId now)

def IsRecovery (_ : World) (call : ThreadCall) : Prop :=
  ∀ results replies pins, call ≠ .beside (.others results replies pins)

/-- The stop of a chat writes to the row of its run and to the rows of its replies. -/
theorem stop_bystanders (c : Chats) (sendId : String) (now : Time) :
    (∀ k, k ≠ sendId →
      (Service.stopChat c sendId now).results.lookup k = c.results.lookup k) ∧
    ∀ k, (∀ r, c.replies.lookup k = some r → r.sendId ≠ sendId) →
      (Service.stopChat c sendId now).replies.lookup k = c.replies.lookup k := by
  constructor
  · intro k hk
    exact Table.lookup_updateAt_ne c.results sendId k _ (Service.stopResult now)
      (fun _ => id rfl) hk
  · intro k hk
    unfold Service.stopChat
    dsimp only
    rw [Table.lookup_update, Table.lookup_update]
    cases hrow : c.replies.lookup k with
    | none => rfl
    | some r => simp [hk r hrow]

/-- What a call of the recovery does to the rows. -/
theorem step_rows (lib : Stdlib) (w : World) (call : ThreadCall) (hcall : IsRecovery w call) :
    ((step lib w call).1.db.chats.results = w.db.chats.results ∧
      (step lib w call).1.db.chats.replies = w.db.chats.replies) ∨
    (∃ i t page, w.threads i = some t ∧ saves t = some page ∧
      OnlyTouches page.candidate.branch w.db.chats (step lib w call).1.db.chats) ∨
    ∃ sendId now, call = .beside (.stop sendId now) ∧
      (step lib w call).1.db.chats = Service.stopChat w.db.chats sendId now := by
  cases call with
  | begin thread call =>
    have hsame : (step lib w (.begin thread call)).1.db = w.db := by
      unfold step
      cases hthread : w.threads thread <;> simp only [hthread, put_db]
    rw [hsame]
    exact Or.inl ⟨rfl, rfl⟩
  | advance thread =>
    cases hthread : w.threads thread with
    | none =>
      have hsame : (step lib w (.advance thread)).1.db = w.db := by
        unfold step
        simp only [hthread]
      rw [hsame]
      exact Or.inl ⟨rfl, rfl⟩
    | some t =>
      have hstep : (step lib w (.advance thread)).1.db = (advance lib w.db t).1 := by
        unfold step
        simp only [hthread, put_db]
      rw [hstep]
      rcases advance_rows lib w.db t with hsame | ⟨page, hsaves, hrows⟩
      · exact Or.inl hsame
      · exact Or.inr (Or.inl ⟨thread, t, page, hthread, hsaves, hrows⟩)
  | fail thread => exact Or.inl ⟨rfl, rfl⟩
  | kill thread => exact Or.inl ⟨rfl, rfl⟩
  | beside call =>
    cases call with
    | request sendId targets now =>
      obtain ⟨hresults, hreplies, _⟩ := addRequest_results sendId now targets.dedup w.db.chats
      exact Or.inl ⟨hresults, hreplies⟩
    | reserve kind now => exact Or.inl ⟨rfl, rfl⟩
    | stop sendId now => exact Or.inr (Or.inr ⟨sendId, now, rfl, rfl⟩)
    | others results replies pins => exact absurd rfl (hcall results replies pins)

/-- A call changes a row only when a thread saves a page of it or its chat is stopped. -/
theorem step_bystanders (lib : Stdlib) (w : World) (call : ThreadCall) (hcall : IsRecovery w call) :
    (∀ k, Spares (fun branch => branch ≠ .original k) w →
      (∀ now, call ≠ .beside (.stop k now)) →
        (step lib w call).1.db.chats.results.lookup k = w.db.chats.results.lookup k) ∧
    ∀ k, Spares (fun branch => ∀ parentId prompt, branch ≠ .reply k parentId prompt) w →
      (∀ r now, w.db.chats.replies.lookup k = some r → call ≠ .beside (.stop r.sendId now)) →
        (step lib w call).1.db.chats.replies.lookup k = w.db.chats.replies.lookup k := by
  rcases step_rows lib w call hcall with ⟨hresults, hreplies⟩ |
    ⟨i, t, page, hthread, hsaves, hrows⟩ | ⟨sendId, now, rfl, hstop⟩
  · rw [hresults, hreplies]
    exact ⟨fun _ _ _ => rfl, fun _ _ _ => rfl⟩
  · exact ⟨fun k hspares _ => hrows.results k (hspares i t page hthread hsaves),
      fun k hspares _ => hrows.replies k (hspares i t page hthread hsaves)⟩
  · obtain ⟨hresults, hreplies⟩ := stop_bystanders w.db.chats sendId now
    rw [hstop]
    constructor
    · intro k _ hother
      refine hresults k ?_
      rintro rfl
      exact hother now rfl
    · intro k _ hother
      refine hreplies k ?_
      rintro r hr rfl
      exact hother r now hr rfl

/-- By induction on the run, for pages that are open at its start as well. -/
theorem bystanders_from (lib : Stdlib) (w : World) (run : List ThreadCall)
    (hrun : Meets (step lib) IsRecovery w run) :
    (∀ k, Spares (fun branch => branch ≠ .original k) w →
      (∀ e ∈ events (step lib) w run, ¬ NamesRun e k) →
        (final (step lib) w run).db.chats.results.lookup k = w.db.chats.results.lookup k) ∧
    ∀ k, Spares (fun branch => ∀ parentId prompt, branch ≠ .reply k parentId prompt) w →
      (∀ e ∈ events (step lib) w run, ¬ NamesReply e k) →
        (final (step lib) w run).db.chats.replies.lookup k = w.db.chats.replies.lookup k := by
  induction run generalizing w with
  | nil => exact ⟨fun _ _ _ => rfl, fun _ _ _ => rfl⟩
  | cons call rest ih =>
    obtain ⟨hresults, hreplies⟩ := ih (step lib w call).1 hrun.2
    obtain ⟨hrow, hreply⟩ := step_bystanders lib w call hrun.1
    constructor
    · intro k hspares hk
      have hfirst := hk _ List.mem_cons_self
      have hnext : Spares (fun branch => branch ≠ .original k) (step lib w call).1 := by
        refine spares_step lib call ?_ hspares
        intro i turn page hpage hbranch
        exact hfirst (Or.inl ⟨i, turn, page, hpage, hbranch⟩)
      refine (hresults k hnext fun e he => hk e (List.mem_cons_of_mem _ he)).trans
        (hrow k hspares ?_)
      intro now hstop
      exact hfirst (Or.inr ⟨now, hstop⟩)
    · intro k hspares hk
      have hfirst := hk _ List.mem_cons_self
      have hnext : Spares (fun branch => ∀ parentId prompt, branch ≠ .reply k parentId prompt)
          (step lib w call).1 := by
        refine spares_step lib call ?_ hspares
        intro i turn page hpage parentId prompt hbranch
        exact hfirst (Or.inl ⟨i, turn, page, parentId, prompt, hpage, hbranch⟩)
      refine (hreplies k hnext fun e he => hk e (List.mem_cons_of_mem _ he)).trans
        (hreply k hspares ?_)
      intro r now hr hstop
      exact hfirst (Or.inr ⟨r, now, hr, hstop⟩)

/-- A row stays as it is in every run in which no thread opens its page and no stop names its
chat. -/
theorem bystanders_kept (lib : Stdlib) (s : RecoveryState) (run : List ThreadCall)
    (hrun : Meets (step lib) IsRecovery (World.start s) run) :
    (∀ k, (∀ e ∈ events (step lib) (World.start s) run, ¬ NamesRun e k) →
      (final (step lib) (World.start s) run).db.chats.results.lookup k =
        s.chats.results.lookup k) ∧
    ∀ k, (∀ e ∈ events (step lib) (World.start s) run, ¬ NamesReply e k) →
      (final (step lib) (World.start s) run).db.chats.replies.lookup k =
        s.chats.replies.lookup k := by
  obtain ⟨hresults, hreplies⟩ := bystanders_from lib (World.start s) run hrun
  exact ⟨fun k hk => hresults k (fun i t page ht => by cases ht) hk,
    fun k hk => hreplies k (fun i t page ht => by cases ht) hk⟩

/-- The first run's page is read by a thread, and the chat of the second one is stopped. -/
def readAndStop : List ThreadCall :=
  .begin 0 (ThreadPacing.unreadTurn 0) :: List.replicate 12 (.advance 0) ++
    [.beside (.stop "run-2" 30)]

theorem readAndStop_recovery (lib : Stdlib) (w : World) :
    Meets (step lib) IsRecovery w readAndStop := by
  rw [meets_iff_events]
  intro e he results replies pins hcall
  have hinput := event_input (step lib) w readAndStop e he
  rw [hcall] at hinput
  simp [readAndStop] at hinput

theorem bystanders_kept_readAndStop :
    (∀ k, (∀ e ∈ events (step Service.plainLib) (World.start twoRequests) readAndStop,
        ¬ NamesRun e k) →
      (final (step Service.plainLib) (World.start twoRequests)
        readAndStop).db.chats.results.lookup k = twoRequests.chats.results.lookup k) ∧
    ∀ k, (∀ e ∈ events (step Service.plainLib) (World.start twoRequests) readAndStop,
        ¬ NamesReply e k) →
      (final (step Service.plainLib) (World.start twoRequests)
        readAndStop).db.chats.replies.lookup k = twoRequests.chats.replies.lookup k :=
  bystanders_kept Service.plainLib twoRequests readAndStop (readAndStop_recovery _ _)

end Prompta.Bystanders
