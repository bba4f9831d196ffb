import Prompta.RecoveryThreads

/-!
The pace of recovery threads. Each call writes at most once to the table of reads, so what holds
there of slots and pauses holds in any interleaving of the turns' transactions; and a turn opens
a page only in a slot of its own.
-/
namespace Prompta.ThreadPacing

open Tables Texts Schema DisplayBlocks ResponseStore Runs
open RecoveryAttempts hiding step Call
open HistoryRecovery RecoveryThreads
open RecoveryTurns hiding step Output KeepsNames

/-- The turn keeps its call, and what it holds it held before or read off a row just now. -/
def Holds (s : RecoveryState) (t : Turn) (held : List Candidate) (next : Option Turn) : Prop :=
  ∀ t', next = some t' →
    t'.call = t.call ∧ ∀ c ∈ t'.stage.candidates, c ∈ held ∨ FromRow s c

theorem holds_none (s : RecoveryState) (t : Turn) (held : List Candidate) :
    Holds s t held none := by
  intro t' h
  cases h

theorem holds_goto {s : RecoveryState} {held : List Candidate} {t : Turn} {stage : Stage}
    (h : ∀ c ∈ stage.candidates, c ∈ held ∨ FromRow s c) : Holds s t held (t.goto stage) := by
  intro t' ht
  rw [goto_some ht]
  exact ⟨rfl, h⟩

theorem holds_same {s : RecoveryState} {held : List Candidate} {t : Turn} {stage : Stage}
    (h : stage.candidates = held) : Holds s t held (t.goto stage) := by
  apply holds_goto
  intro c hc
  exact Or.inl (h ▸ hc)

theorem better_cases (best : Option Candidate) (c d : Candidate) (h : d ∈ better best c) :
    d = c ∨ best = some d := by
  unfold better List.argAux at h
  cases best with
  | none => exact Or.inl (Option.mem_some.mp h).symm
  | some b =>
    dsimp only at h
    split at h
    · exact Or.inl (Option.mem_some.mp h).symm
    · exact Or.inr (congrArg some (Option.mem_some.mp h))

theorem asked_holds (s : RecoveryState) (t : Turn) (search : Search) :
    Holds s t search.best.toList (asked s t search) := by
  obtain ⟨rest, best, last⟩ := search
  unfold asked
  cases rest with
  | nil =>
    cases last with
    | false => exact holds_same rfl
    | true =>
      cases best with
      | none => exact holds_none _ _ _
      | some c => exact holds_same rfl
  | cons target rest =>
    dsimp only
    cases hturn : requestedTurn s target with
    | none => exact holds_same rfl
    | some c =>
      apply holds_goto
      intro d hd
      rcases better_cases best c d (Option.mem_toList.mp hd) with rfl | hbest
      · exact Or.inr (fromRow_requested hturn)
      · exact Or.inl (Option.mem_toList.mpr hbest)

theorem orAutomatic_holds {s : RecoveryState} {held : List Candidate} (t : Turn)
    {found : Option Candidate} (h : ∀ c, found = some c → c ∈ held ∨ FromRow s c) :
    Holds s t held (orAutomatic t found) := by
  cases found with
  | none => exact holds_goto (by simp [Stage.candidates])
  | some c =>
    apply holds_goto
    intro d hd
    rw [List.mem_singleton.mp hd]
    exact h c rfl

theorem preferred_holds (s : RecoveryState) (t : Turn) : Holds s t [] (preferred s t) := by
  unfold preferred
  cases t.call.preferredSendId with
  | some sendId =>
    dsimp only
    cases hturn : requestedTurn s sendId with
    | none => exact holds_none _ _ _
    | some c =>
      apply holds_goto
      intro d hd
      rw [List.mem_singleton.mp hd]
      exact Or.inr (fromRow_requested hturn)
  | none =>
    dsimp only
    split
    · exact orAutomatic_holds t (by simp)
    · apply holds_goto
      intro c hc
      exact Or.inr (fromRow_original (Option.mem_toList.mp hc))

theorem query_fromRow {s : RecoveryState} {inventory : Inventory} {q : Query} {c : Candidate}
    (h : q.run s inventory = some c) : FromRow s c := by
  unfold Query.run at h
  split at h
  · exact fromRow_reply h
  · exact fromRow_original h

theorem queried_holds (s : RecoveryState) (t : Turn) (found : List (Bool × Candidate))
    (queries : List Query) :
    Holds s t (found.map Prod.snd) (queried s t found queries) := by
  cases queries with
  | nil =>
    unfold queried
    cases hfirst : firstAutomatic found with
    | none => exact holds_goto (by simp [Stage.candidates])
    | some c =>
      apply holds_goto
      intro d hd
      obtain ⟨item, hitem, hname⟩ := Option.map_eq_some_iff.mp hfirst
      rw [List.mem_singleton.mp hd, ← hname]
      exact Or.inl (List.mem_map_of_mem (List.argmin_mem hitem))
  | cons q rest =>
    apply holds_goto
    intro d hd
    obtain ⟨item, hitem, rfl⟩ := List.mem_map.mp hd
    rcases List.mem_append.mp hitem with hold | hnew
    · exact Or.inl (List.mem_map_of_mem hold)
    · obtain ⟨c, hc, rfl⟩ := List.mem_map.mp hnew
      exact Or.inr (query_fromRow (Option.mem_toList.mp hc))

theorem advance_holds (lib : Stdlib) (s : RecoveryState) (t : Turn) :
    Holds s t t.stage.candidates (advance lib s t).2 := by
  obtain ⟨call, requests, stage⟩ := t
  unfold advance
  cases stage with
  | pauseCheck =>
    dsimp only
    split
    · exact holds_none _ _ _
    · exact holds_same rfl
  | paceCheck =>
    dsimp only
    split
    · exact holds_none _ _ _
    · exact holds_same rfl
  | listing =>
    intro t' h
    obtain rfl := Option.some.inj h
    refine ⟨rfl, ?_⟩
    intro c hc
    cases hc
  | asking search => exact asked_holds s _ search
  | missing target search =>
    dsimp only
    split <;> exact holds_same rfl
  | dropping target search => exact holds_same rfl
  | counting requested =>
    dsimp only
    split
    · rename_i c hslot
      refine holds_same ?_
      rw [(Option.filter_eq_some_iff.mp hslot).1]
      rfl
    · exact holds_goto (by simp [Stage.candidates])
  | preferring => exact preferred_holds s _
  | pinning original =>
    apply orAutomatic_holds
    intro c hc
    rcases List.mem_append.mp (List.argmin_mem hc) with hmem | hmem
    · exact Or.inl hmem
    · exact Or.inr (fromRow_reply (Option.mem_toList.mp hmem))
  | automatic queries found => exact queried_holds s _ found queries
  | reserving c manual =>
    dsimp only
    split
    · exact holds_same rfl
    · exact holds_none _ _ _
  | targeting c manual => exact holds_same rfl
  | probing page =>
    apply holds_goto
    intro c hc
    unfold probed at hc
    refine Or.inl ?_
    split at hc
    · exact hc
    · split at hc <;> exact hc
  | noting page result =>
    cases result <;> exact holds_same rfl
  | saving page capture =>
    dsimp only
    split <;> exact holds_same rfl
  | checking page =>
    dsimp only
    split <;> exact holds_same rfl
  | clearing page => exact holds_none _ _ _
  | failures page => exact holds_same rfl
  | pausing page failures => exact holds_same rfl
  | scheduling page => exact holds_same rfl
  | deferring page => exact holds_none _ _ _

/-- The write of a turn's next transaction to the table of reads. -/
def turnWrite (t : Turn) : Option RecoveryAttempts.Call :=
  match t.stage with
  | .reserving _ manual => some ⟨t.call.now, .reserve (slotKind manual)⟩
  | .pausing _ failures => some ⟨t.call.now, .pause failures⟩
  | .scheduling page => some ⟨t.call.now, .attempt page.candidate.target⟩
  | _ => none

/-- The write of a call to the table of reads. -/
def writeOf (w : World) : ThreadCall → Option RecoveryAttempts.Call
  | .advance thread => (w.threads thread).bind turnWrite
  | .beside (.reserve kind now) => some ⟨now, .reserve kind⟩
  | _ => none

theorem advance_writes (lib : Stdlib) (s : RecoveryState) (t : Turn) :
    (advance lib s t).1.attempts =
      final RecoveryAttempts.step s.attempts (turnWrite t).toList := by
  obtain ⟨call, requests, stage⟩ := t
  unfold advance
  cases stage with
  | reserving c manual =>
    dsimp only
    split
    · rfl
    · rename_i hrefused
      exact (reserve_refused (Bool.eq_false_of_not_eq_true hrefused)).symm
  | noting page result => cases result <;> rfl
  | _ => rfl

theorem step_writes (lib : Stdlib) (w : World) (call : ThreadCall) :
    (step lib w call).1.db.attempts =
      final RecoveryAttempts.step w.db.attempts (writeOf w call).toList := by
  cases call with
  | begin thread call =>
    unfold step
    cases hthread : w.threads thread <;> simp only [hthread] <;> rfl
  | advance thread =>
    unfold step writeOf
    cases hthread : w.threads thread with
    | none => simp only [hthread]; rfl
    | some t =>
      simp only [hthread]
      exact advance_writes lib w.db t
  | fail thread => rfl
  | kill thread => rfl
  | beside call => cases call <;> rfl

/-- No row and no candidate of a turn carries the name of a sentinel row. -/
structure Named (w : World) : Prop where
  rows : NoSentinels w.db.chats.results
  held : ∀ i t, w.threads i = some t → ∀ c ∈ t.stage.candidates, isSentinel c.target = false

/-- The rest of the service names no chat like a sentinel row. -/
def KeepsNames (_ : World) (call : ThreadCall) : Prop :=
  ∀ results replies pins, call = .beside (.others results replies pins) → NoSentinels results

/-- No call writes an attempt under a sentinel's name. -/
theorem writeOf_named {w : World} (hnamed : Named w) {call : ThreadCall}
    {write : RecoveryAttempts.Call} (h : writeOf w call = some write) {sendId : String}
    (hattempt : write.write = .attempt sendId) : isSentinel sendId = false := by
  cases call with
  | advance thread =>
    obtain ⟨t, hthread, hturn⟩ := Option.bind_eq_some_iff.mp h
    have hheld := hnamed.held thread t hthread
    obtain ⟨call, requests, stage⟩ := t
    unfold turnWrite at hturn
    split at hturn
    · obtain rfl := Option.some.inj hturn
      cases hattempt
    · obtain rfl := Option.some.inj hturn
      cases hattempt
    · rename_i page hstage
      obtain rfl := Option.some.inj hturn
      cases hattempt
      dsimp only at hstage hheld
      rw [hstage] at hheld
      exact hheld page.candidate List.mem_cons_self
    · cases hturn
  | beside call =>
    cases call with
    | reserve kind now =>
      obtain rfl := Option.some.inj h
      cases hattempt
    | request sendId targets now => cases h
    | stop sendId now => cases h
    | others results replies pins => cases h
  | begin thread call => cases h
  | fail thread => cases h
  | kill thread => cases h

theorem writeOf_meets {w : World} (hnamed : Named w) (call : ThreadCall) :
    Meets RecoveryAttempts.step NamesTurn w.db.attempts (writeOf w call).toList := by
  cases h : writeOf w call with
  | none => trivial
  | some write => exact ⟨fun sendId hattempt => writeOf_named hnamed h hattempt, trivial⟩

theorem advance_results (lib : Stdlib) (s : RecoveryState) (t : Turn) :
    (advance lib s t).1.chats.results.rows.map ResultRow.sendId =
      s.chats.results.rows.map ResultRow.sendId := by
  obtain ⟨call, requests, stage⟩ := t
  unfold advance
  cases stage with
  | reserving c manual =>
    dsimp only
    split <;> rfl
  | noting page result =>
    cases result with
    | none => rfl
    | some result => exact (OnlyTouches.noteLoaded s.chats page.candidate result call.now).names
  | saving page capture =>
    exact (OnlyTouches.saveRead lib s.chats page.candidate capture call.now).names
  | clearing page =>
    dsimp only
    cases page.manualTarget <;> rfl
  | deferring page =>
    dsimp only
    cases page.manualTarget <;> rfl
  | _ => rfl

/-- A thread with a named turn. -/
theorem named_put {w : World} (hnamed : Named w) (thread : ℕ) {next : Option Turn}
    (h : ∀ t, next = some t → ∀ c ∈ t.stage.candidates, isSentinel c.target = false) :
    Named (w.put thread next) where
  rows := hnamed.rows
  held i t ht := by
    by_cases hi : i = thread
    · subst hi
      rw [put_self] at ht
      exact h t ht
    · rw [put_ne w next hi] at ht
      exact hnamed.held i t ht

theorem raised_candidates {t t' : Turn} (h : raised t = some t') :
    t'.stage.candidates = t.stage.candidates := by
  obtain ⟨call, requests, stage⟩ := t
  cases stage <;> cases h <;> rfl

theorem step_named (lib : Stdlib) (w : World) (call : ThreadCall) (hkeeps : KeepsNames w call)
    (hnamed : Named w) : Named (step lib w call).1 := by
  cases call with
  | begin thread call =>
    unfold step
    cases hthread : w.threads thread with
    | some t => simpa only [hthread] using hnamed
    | none =>
      simp only [hthread]
      apply named_put hnamed
      intro t ht c hc
      unfold started at ht
      split at ht
      · cases ht
      · obtain rfl := Option.some.inj ht
        cases hc
  | advance thread =>
    unfold step
    cases hthread : w.threads thread with
    | none => simpa only [hthread] using hnamed
    | some t =>
      simp only [hthread]
      have hrows : NoSentinels (advance lib w.db t).1.chats.results :=
        noSentinels_of_keys (advance_results lib w.db t) hnamed.rows
      refine named_put (w := { w with db := (advance lib w.db t).1 }) ⟨hrows, hnamed.held⟩
        thread ?_
      intro t' ht' c hc
      rcases (advance_holds lib w.db t t' ht').2 c hc with hold | hrow
      · exact hnamed.held thread t hthread c hold
      · exact fromRow_name hrow hnamed.rows
  | fail thread =>
    apply named_put hnamed
    intro t' ht' c hc
    obtain ⟨t, hthread, hraised⟩ := Option.bind_eq_some_iff.mp ht'
    rw [raised_candidates hraised] at hc
    exact hnamed.held thread t hthread c hc
  | kill thread =>
    apply named_put hnamed
    intro t ht
    cases ht
  | beside call =>
    refine ⟨step_names lib w.db call.toRecovery ?_ hnamed.rows, hnamed.held⟩
    intro results replies pins hcall
    cases call with
    | others results' replies' pins' =>
      cases hcall
      exact hkeeps _ _ _ rfl
    | request sendId targets now => cases hcall
    | reserve kind now => cases hcall
    | stop sendId now => cases hcall

/-- No call shortens what a sentinel's row holds back. -/
theorem holds_step (lib : Stdlib) {w : World} (hnamed : Named w) (call : ThreadCall)
    {sentinel : String} (hsentinel : isSentinel sentinel = true) {until_ : Time}
    (h : HoldsUntil w.db.attempts sentinel until_) :
    HoldsUntil (step lib w call).1.db.attempts sentinel until_ := by
  rw [step_writes]
  exact holds_kept _ _ (writeOf_meets hnamed call) hsentinel h

/-- The slot that a call was granted. -/
structure Slot where
  start : Time
  stop : Time

def slotOf (e : Event World ThreadCall Unit) : Option Slot :=
  (writeOf e.pre e.input).bind fun write =>
    match write.write with
    | .reserve kind =>
      if (reserveHistoryRecoveryGlobalSlot e.pre.db.attempts write.now kind.interval).2 then
        some ⟨write.now, write.now + kind.interval⟩
      else none
    | _ => none

/-- The end of the pause that a call writes after a challenge. -/
def pauseOf (e : Event World ThreadCall Unit) : Option Time :=
  (writeOf e.pre e.input).bind fun write =>
    match write.write with
    | .pause failures => some (write.now + challengePause failures)
    | _ => none

/-- The slots that a turn was granted and has not opened a page in. -/
def unspent (t : Option Turn) : ℕ :=
  match t.map Turn.stage with
  | some (.targeting _ _) => 1
  | some (.probing _) => 1
  | _ => 0

theorem choosing_unspent {next : Option Turn} (h : stillChoosing next = true) :
    unspent next = 0 := by
  cases next with
  | none => rfl
  | some t =>
    obtain ⟨call, requests, stage⟩ := t
    cases stage <;> first | rfl | cases h

theorem probed_unspent (t : Turn) (page : PageRead) : unspent (t.goto (probed t page)) = 0 := by
  unfold probed
  split
  · rfl
  · split <;> rfl

def opened (t : Turn) : Option PageRead :=
  match t.stage with
  | .probing page => if isUuid page.candidate.conversationId then some page else none
  | _ => none

/-- The slot that the next transaction of a turn is granted. -/
def takesSlot (s : RecoveryState) (t : Turn) : Bool :=
  match t.stage with
  | .reserving _ manual =>
    (reserveHistoryRecoveryGlobalSlot s.attempts t.call.now (slotKind manual).interval).2
  | _ => false

theorem advance_unspent (lib : Stdlib) (s : RecoveryState) (t : Turn) :
    (opened t).toList.length + unspent (advance lib s t).2 ≤
      unspent (some t) + (takesSlot s t).toNat := by
  obtain ⟨call, requests, stage⟩ := t
  have hnone : ∀ {next : Option Turn}, unspent next = 0 →
      0 + unspent next ≤ unspent (some ⟨call, requests, stage⟩) +
        (takesSlot s ⟨call, requests, stage⟩).toNat := by
    intro next hnext
    rw [hnext]
    exact Nat.zero_le _
  cases stage with
  | pauseCheck =>
    refine hnone ?_
    unfold advance
    dsimp only
    split <;> rfl
  | paceCheck =>
    refine hnone ?_
    unfold advance
    dsimp only
    split <;> rfl
  | listing => exact hnone rfl
  | asking search => exact hnone (choosing_unspent (asked_choosing s _ search))
  | missing target search =>
    refine hnone ?_
    unfold advance
    dsimp only
    split <;> rfl
  | dropping target search => exact hnone rfl
  | counting requested =>
    refine hnone ?_
    unfold advance
    dsimp only
    split <;> rfl
  | preferring => exact hnone (choosing_unspent (preferred_choosing s _))
  | pinning original => exact hnone (choosing_unspent (orAutomatic_choosing _ _))
  | automatic queries found => exact hnone (choosing_unspent (queried_choosing s _ found queries))
  | reserving c manual =>
    unfold advance takesSlot opened
    dsimp only
    split
    · rename_i hslot
      rw [hslot]
      exact le_refl 1
    · exact Nat.zero_le _
  | targeting c manual => exact le_refl 1
  | probing page =>
    change (opened _).toList.length + unspent (Turn.goto _ (probed _ page)) ≤ _
    rw [probed_unspent]
    unfold opened
    dsimp only
    split
    · exact le_refl 1
    · exact Nat.zero_le _
  | noting page result =>
    refine hnone ?_
    cases result <;> rfl
  | saving page capture =>
    refine hnone ?_
    unfold advance
    dsimp only
    split <;> rfl
  | checking page =>
    refine hnone ?_
    unfold advance
    dsimp only
    split <;> rfl
  | clearing page => exact hnone rfl
  | failures page => exact hnone rfl
  | pausing page failures => exact hnone rfl
  | scheduling page => exact hnone rfl
  | deferring page => exact hnone rfl

def pageOf (e : Event World ThreadCall Unit) : Option (ℕ × TurnCall × PageRead) :=
  match e.input with
  | .advance thread =>
    (e.pre.threads thread).bind fun t => (opened t).map fun page => (thread, t.call, page)
  | _ => none

/-- A granted slot starts when the last one has run out, and holds back the next. -/
theorem slot_step (lib : Stdlib) {w : World} (call : ThreadCall) {slot : Slot}
    (h : slotOf ⟨w, call, (step lib w call).2, (step lib w call).1⟩ = some slot) :
    PaceOpen w.db.attempts slot.start ∧
      HoldsUntil (step lib w call).1.db.attempts globalPacing slot.stop := by
  obtain ⟨⟨now, write⟩, hwrite, hslot⟩ := Option.bind_eq_some_iff.mp h
  dsimp only at hwrite hslot
  rw [step_writes, hwrite]
  split at hslot
  · rename_i kind
    split at hslot
    · rename_i hgranted
      obtain rfl := Option.some.inj hslot
      exact ⟨(reserve_granted_iff _ _ _).mp hgranted, ⟨_, reserve_granted hgranted, le_refl _⟩⟩
    · cases hslot
  · cases hslot

/-- A pause that is written holds from then on. -/
theorem pause_step (lib : Stdlib) {w : World} (call : ThreadCall) {until_ : Time}
    (h : pauseOf ⟨w, call, (step lib w call).2, (step lib w call).1⟩ = some until_) :
    HoldsUntil (step lib w call).1.db.attempts securityPause until_ := by
  obtain ⟨⟨now, write⟩, hwrite, hpause⟩ := Option.bind_eq_some_iff.mp h
  dsimp only at hwrite hpause
  rw [step_writes, hwrite]
  split at hpause
  · obtain rfl := Option.some.inj hpause
    exact pause_holds _ _ _
  · cases hpause

def pastPauseCheck (t : Turn) : Bool :=
  match t.stage with
  | .pauseCheck => false
  | _ => true

/-- A turn that has found no pause left found none while the pause row held none back. -/
theorem advance_past {lib : Stdlib} {s : RecoveryState} {t : Turn} {until_ : Time}
    (hpause : HoldsUntil s.attempts securityPause until_)
    (hpast : pastPauseCheck t = true → until_ ≤ t.call.now) {t' : Turn}
    (h : (advance lib s t).2 = some t') : until_ ≤ t'.call.now := by
  rw [(advance_holds lib s t t' h).1]
  cases hstage : pastPauseCheck t with
  | true => exact hpast hstage
  | false =>
    obtain ⟨call, requests, stage⟩ := t
    cases stage with
    | pauseCheck =>
      simp only [advance] at h
      split at h
      · cases h
      · rename_i hover
        obtain ⟨row, hrow, hlate⟩ := hpause
        rw [historyRecoverySecurityPauseRemaining, hrow, not_lt] at hover
        have hend := (max_le_iff.mp hover).2
        simp only [Option.elim_some] at hend
        dsimp only
        linarith
    | _ => cases hstage

/-- The pause binds the thread's turn, once it has passed its own check. -/
def Bound (i : ℕ) (until_ : Time) (w : World) : Prop :=
  HoldsUntil w.db.attempts securityPause until_ ∧
    ∀ t, w.threads i = some t → pastPauseCheck t = true → until_ ≤ t.call.now

theorem raised_call {t t' : Turn} (h : raised t = some t') :
    t'.call = t.call ∧ pastPauseCheck t = true := by
  obtain ⟨call, requests, stage⟩ := t
  cases stage <;> cases h <;> exact ⟨rfl, rfl⟩

/-- A turn that passes its check after the pause was written begins behind it. -/
theorem bound_put {i : ℕ} {until_ : Time} {w : World} (h : Bound i until_ w) (thread : ℕ)
    {next : Option Turn}
    (hnext : i = thread → ∀ t, next = some t → pastPauseCheck t = true → until_ ≤ t.call.now) :
    Bound i until_ (w.put thread next) := by
  refine ⟨h.1, ?_⟩
  intro t ht
  by_cases hi : i = thread
  · subst hi
    rw [put_self] at ht
    exact hnext rfl t ht
  · rw [put_ne w next hi] at ht
    exact h.2 t ht

theorem bound_step (lib : Stdlib) {w : World} (hnamed : Named w) (call : ThreadCall) {i : ℕ}
    {until_ : Time} (h : Bound i until_ w) : Bound i until_ (step lib w call).1 := by
  have hheld : HoldsUntil (step lib w call).1.db.attempts securityPause until_ :=
    holds_step lib hnamed call rfl h.1
  refine ⟨hheld, ?_⟩
  cases call with
  | begin thread call =>
    unfold step
    cases hthread : w.threads thread with
    | some t => simpa only [hthread] using h.2
    | none =>
      simp only [hthread]
      refine (bound_put h thread ?_).2
      intro _ t ht hpast
      unfold started at ht
      split at ht
      · cases ht
      · obtain rfl := Option.some.inj ht
        cases hpast
  | advance thread =>
    unfold step
    cases hthread : w.threads thread with
    | none => simpa only [hthread] using h.2
    | some t =>
      simp only [hthread]
      have hpre : Bound i until_ { w with db := (advance lib w.db t).1 } := by
        refine ⟨?_, h.2⟩
        unfold step at hheld
        simp only [hthread, put_db] at hheld
        exact hheld
      refine (bound_put hpre thread ?_).2
      rintro rfl t' ht' _
      exact advance_past h.1 (h.2 t hthread) ht'
  | fail thread =>
    refine (bound_put h thread ?_).2
    rintro rfl t' ht' _
    obtain ⟨t, hthread, hraised⟩ := Option.bind_eq_some_iff.mp ht'
    obtain ⟨hcall, hpast⟩ := raised_call hraised
    rw [hcall]
    exact h.2 t hthread hpast
  | kill thread =>
    refine (bound_put h thread ?_).2
    intro _ t ht
    cases ht
  | beside call => exact h.2

theorem opened_past {t : Turn} {page : PageRead} (h : opened t = some page) :
    pastPauseCheck t = true := by
  obtain ⟨call, requests, stage⟩ := t
  cases stage <;> first | rfl | cases h

theorem page_thread {e : Event World ThreadCall Unit} {i : ℕ} {call : TurnCall} {page : PageRead}
    (h : pageOf e = some (i, call, page)) :
    ∃ t, e.pre.threads i = some t ∧ t.call = call ∧ pastPauseCheck t = true := by
  unfold pageOf at h
  split at h
  · obtain ⟨t, hthread, hpage⟩ := Option.bind_eq_some_iff.mp h
    obtain ⟨page', hopened, hsame⟩ := Option.map_eq_some_iff.mp hpage
    simp only [Prod.mk.injEq] at hsame
    obtain ⟨rfl, hcall, _⟩ := hsame
    exact ⟨t, hthread, hcall, opened_past hopened⟩
  · cases h

def pageBy (i : ℕ) (e : Event World ThreadCall Unit) : Bool :=
  (pageOf e).any fun page => decide (page.1 = i)

def slotBy (i : ℕ) (e : Event World ThreadCall Unit) : Bool :=
  match e.input with
  | .advance thread => decide (thread = i) && (slotOf e).isSome
  | _ => false

theorem slotBy_of_takes {lib : Stdlib} {w : World} {i : ℕ} {t : Turn}
    (hthread : w.threads i = some t) :
    slotBy i ⟨w, .advance i, (step lib w (.advance i)).2, (step lib w (.advance i)).1⟩ =
      takesSlot w.db t := by
  simp only [slotBy, slotOf, writeOf, hthread, Option.bind_some, decide_true, Bool.true_and]
  obtain ⟨call, requests, stage⟩ := t
  cases stage with
  | reserving c manual =>
    simp only [turnWrite, takesSlot, Option.bind_some]
    split <;> simp [*]
  | _ => rfl

/-- A thread opens a page by its own step only. -/
theorem pageBy_opened {lib : Stdlib} {w : World} {i : ℕ} {t : Turn}
    (hthread : w.threads i = some t) :
    (pageBy i ⟨w, .advance i, (step lib w (.advance i)).2, (step lib w (.advance i)).1⟩).toNat =
      (opened t).toList.length := by
  simp only [pageBy, pageOf, hthread, Option.bind_some]
  cases opened t <;> simp

theorem raised_unspent (t : Turn) : unspent (raised t) = 0 := by
  obtain ⟨call, requests, stage⟩ := t
  cases stage <;> rfl

theorem put_unspent (w : World) (thread i : ℕ) {next : Option Turn} (h : unspent next = 0) :
    unspent ((w.put thread next).threads i) ≤ unspent (w.threads i) := by
  by_cases hi : i = thread
  · subst hi
    rw [put_self, h]
    exact Nat.zero_le _
  · rw [put_ne w next hi]

/-- A page that is opened uses up a slot of the thread. -/
theorem unspent_step (lib : Stdlib) (w : World) (call : ThreadCall) (i : ℕ) :
    (pageBy i ⟨w, call, (step lib w call).2, (step lib w call).1⟩).toNat +
        unspent ((step lib w call).1.threads i) ≤
      unspent (w.threads i) +
        (slotBy i ⟨w, call, (step lib w call).2, (step lib w call).1⟩).toNat := by
  cases call with
  | begin thread call =>
    have hstep : unspent ((step lib w (.begin thread call)).1.threads i) ≤
        unspent (w.threads i) := by
      unfold step
      cases hthread : w.threads thread with
      | some t => simp only [hthread, le_refl]
      | none =>
        simp only [hthread]
        apply put_unspent
        unfold started
        split <;> rfl
    simpa [pageBy, pageOf, slotBy] using hstep
  | advance thread =>
    cases hthread : w.threads thread with
    | none =>
      have hsame : (step lib w (.advance thread)).1 = w := by
        unfold step
        simp only [hthread]
      simp [hsame, pageBy, pageOf, hthread]
    | some t =>
      have hstep : (step lib w (.advance thread)).1 =
          { w with db := (advance lib w.db t).1 }.put thread (advance lib w.db t).2 := by
        unfold step
        simp only [hthread]
      by_cases hi : i = thread
      · subst hi
        rw [pageBy_opened hthread, slotBy_of_takes hthread, hstep, put_self, hthread]
        exact advance_unspent lib w.db t
      · rw [hstep, put_ne _ _ hi]
        have hpage : pageBy i ⟨w, .advance thread, (step lib w (.advance thread)).2,
            (step lib w (.advance thread)).1⟩ = false := by
          simp only [pageBy, pageOf, hthread, Option.bind_some]
          cases opened t <;> simp [Ne.symm hi]
        rw [← hstep, hpage]
        exact Nat.le_add_right_of_le (by simp)
  | fail thread =>
    have hstep : unspent ((step lib w (.fail thread)).1.threads i) ≤ unspent (w.threads i) := by
      apply put_unspent
      cases w.threads thread with
      | none => rfl
      | some t => exact raised_unspent t
    simpa [pageBy, pageOf, slotBy] using hstep
  | kill thread =>
    have hstep : unspent ((step lib w (.kill thread)).1.threads i) ≤ unspent (w.threads i) :=
      put_unspent w thread i rfl
    simpa [pageBy, pageOf, slotBy] using hstep
  | beside call => simp [pageBy, pageOf, slotBy, step]

/-- No thread opens more pages than it was granted slots. -/
theorem pages_paid (lib : Stdlib) (w : World) (run : List ThreadCall) (i : ℕ) :
    (events (step lib) w run).countP (pageBy i) ≤
      unspent (w.threads i) + (events (step lib) w run).countP (slotBy i) := by
  induction run generalizing w with
  | nil => exact Nat.zero_le _
  | cons call rest ih =>
    have hstep := unspent_step lib w call i
    have hrest := ih (step lib w call).1
    have hone : ∀ b : Bool, (if b = true then 1 else 0) = b.toNat := by
      intro b
      cases b <;> rfl
    rw [events, List.countP_cons, List.countP_cons, hone, hone]
    omega

section Apart

variable {lib : Stdlib} {s : RecoveryState} {run : List ThreadCall}
  (hnames : NoSentinels s.chats.results) (hrun : Meets (step lib) KeepsNames (World.start s) run)

include hnames hrun

theorem event_named (e : Event World ThreadCall Unit)
    (he : e ∈ events (step lib) (World.start s) run) : Named e.pre := by
  have hstart : Named (World.start s) := ⟨hnames, fun i t ht => by cases ht⟩
  exact event_invariant (step lib) KeepsNames Named
    (fun w call hcall hw => step_named lib w call hcall hw) _ hstart run hrun e he

/-- What every call keeps holds after one call and still before a later one. -/
theorem kept_between {P : World → Prop}
    (hstep : ∀ w call, Named w → P w → P (step lib w call).1)
    {before between after : List (Event World ThreadCall Unit)} {e e' : Event World ThreadCall Unit}
    (h : events (step lib) (World.start s) run = before ++ e :: (between ++ e' :: after))
    (he : P e.post) : P e'.pre := by
  refine carried_between (step lib) P _ run before between after e e' h he ?_
  intro b hb hpre
  have hmem : b ∈ events (step lib) (World.start s) run := by
    rw [h]
    exact List.mem_append_right _ (List.mem_cons_of_mem _ (List.mem_append_left _ hb))
  have hkept := hstep b.pre b.input (event_named hnames hrun b hmem) hpre
  rw [event_step (step lib) _ run b hmem] at hkept
  exact hkept

/-- What the table of reads keeps between two calls: the end of a slot, and the pause that a
challenged turn has written. -/
theorem kept_apart {before between after : List (Event World ThreadCall Unit)}
    {e e' : Event World ThreadCall Unit}
    (h : events (step lib) (World.start s) run = before ++ e :: (between ++ e' :: after)) :
    (∀ a b, slotOf e = some a → slotOf e' = some b → a.stop ≤ b.start) ∧
      ∀ until_ i call page, pauseOf e = some until_ → pageOf e' = some (i, call, page) →
        until_ ≤ call.now ∨
          (∃ t, e.post.threads i = some t ∧ pastPauseCheck t = true) ∧
            ∀ b ∈ between, b.post.threads i ≠ none := by
  have hmem : e ∈ events (step lib) (World.start s) run := by
    rw [h]
    exact List.mem_append_right _ List.mem_cons_self
  have hmem' : e' ∈ events (step lib) (World.start s) run := by
    rw [h]
    exact List.mem_append_right _ (List.mem_cons_of_mem _
      (List.mem_append_right _ List.mem_cons_self))
  have hshape : ∀ b ∈ events (step lib) (World.start s) run,
      (⟨b.pre, b.input, (step lib b.pre b.input).2, (step lib b.pre b.input).1⟩ :
        Event World ThreadCall Unit) = b := by
    intro b hb
    rw [event_step (step lib) _ run b hb]
  have hpost : (step lib e.pre e.input).1 = e.post := by
    rw [event_step (step lib) _ run e hmem]
  constructor
  · intro a b ha hb
    rw [← hshape e hmem] at ha
    rw [← hshape e' hmem'] at hb
    have hheld := (slot_step lib e.input ha).2
    rw [hpost] at hheld
    obtain ⟨row, hrow, hlate⟩ := kept_between hnames hrun
      (P := fun w => HoldsUntil w.db.attempts globalPacing a.stop)
      (fun w call hw hP => holds_step lib hw call rfl hP) h hheld
    exact hlate.trans ((slot_step lib e'.input hb).1 row hrow)
  · intro until_ i call page hpause hpage
    rw [← hshape e hmem] at hpause
    have hheld := pause_step lib e.input hpause
    rw [hpost] at hheld
    obtain ⟨t, hthread, rfl, hpast⟩ := page_thread hpage
    have hbound : ∀ {l r : List (Event World ThreadCall Unit)} {b : Event World ThreadCall Unit},
        events (step lib) (World.start s) run = l ++ b :: (r ++ e' :: after) →
          Bound i until_ b.post → until_ ≤ t.call.now := by
      intro l r b hsplit hb
      exact (kept_between hnames hrun (fun w call hw hP => bound_step lib hw call hP) hsplit
        hb).2 t hthread hpast
    by_cases hchecked : ∃ u, e.post.threads i = some u ∧ pastPauseCheck u = true
    · by_cases hfree : ∃ b ∈ between, b.post.threads i = none
      · -- The turn began after the pause was written.
        obtain ⟨b, hb, hnone⟩ := hfree
        obtain ⟨l, r, rfl⟩ := List.append_of_mem hb
        rw [List.append_assoc, List.cons_append] at h
        have hmemb : b ∈ events (step lib) (World.start s) run := by
          rw [h]
          simp
        have hpre : HoldsUntil b.pre.db.attempts securityPause until_ :=
          kept_between hnames hrun (P := fun w => HoldsUntil w.db.attempts securityPause until_)
            (fun w call hw hP => holds_step lib hw call rfl hP) h hheld
        have hkept := holds_step lib (event_named hnames hrun b hmemb) b.input rfl hpre
        rw [event_step (step lib) _ run b hmemb] at hkept
        refine Or.inl (hbound (l := before ++ e :: l) (r := r) (b := b) (by simpa using h)
          ⟨hkept, ?_⟩)
        intro u hu
        rw [hnone] at hu
        cases hu
      · refine Or.inr ⟨hchecked, ?_⟩
        intro b hb hnone
        exact hfree ⟨b, hb, hnone⟩
    · refine Or.inl (hbound h ⟨hheld, ?_⟩)
      intro u hu hpastu
      exact absurd ⟨u, hu, hpastu⟩ hchecked

/-- In any interleaving of recovery turns with the dispatchers' slots, no thread opens more pages
than it was granted slots, and a later slot starts after the earlier one has run out. After a
challenged turn has written its pause, no page is opened before the pause is over, but by a turn
that had passed its own check by then. -/
theorem threads_keep_apart :
    (∀ i, (events (step lib) (World.start s) run).countP (pageBy i) ≤
      (events (step lib) (World.start s) run).countP (slotBy i)) ∧
    ∀ before between after e e',
      events (step lib) (World.start s) run = before ++ e :: (between ++ e' :: after) →
        (∀ a b, slotOf e = some a → slotOf e' = some b → a.stop ≤ b.start) ∧
        ∀ until_ i call page, pauseOf e = some until_ → pageOf e' = some (i, call, page) →
          until_ ≤ call.now ∨
            (∃ t, e.post.threads i = some t ∧ pastPauseCheck t = true) ∧
              ∀ b ∈ between, b.post.threads i ≠ none := by
  refine ⟨?_, fun before between after e e' h => kept_apart hnames hrun h⟩
  intro i
  have hpaid := pages_paid lib (World.start s) run i
  have hnone : unspent ((World.start s).threads i) = 0 := rfl
  omega

end Apart

def challengedTurn (now : Time) : TurnCall where
  now := now
  background := true
  probe := fun _ => .securityChallenge

def unreadTurn (now : Time) : TurnCall where
  now := now
  background := true
  probe := fun _ => .failed

/-- The first thread is challenged; another one begins before its pause is over, and once more
after it. -/
def challengedRun : List ThreadCall :=
  .begin 0 (challengedTurn 0) :: List.replicate 14 (.advance 0) ++
    .begin 1 (unreadTurn 900) :: .advance 1 ::
      .begin 1 (unreadTurn 1800) :: List.replicate 12 (.advance 1)

theorem challengedRun_keeps (lib : Stdlib) (w : World) :
    Meets (step lib) KeepsNames w challengedRun := by
  rw [meets_iff_events]
  intro e he results replies pins hcall
  have hinput := event_input (step lib) w challengedRun e he
  rw [hcall] at hinput
  simp [challengedRun] at hinput

theorem threads_keep_apart_challenged :
    (∀ i, (events (step Service.plainLib) (World.start twoRequests) challengedRun).countP
        (pageBy i) ≤
      (events (step Service.plainLib) (World.start twoRequests) challengedRun).countP
        (slotBy i)) ∧
    ∀ before between after e e',
      events (step Service.plainLib) (World.start twoRequests) challengedRun =
        before ++ e :: (between ++ e' :: after) →
        (∀ a b, slotOf e = some a → slotOf e' = some b → a.stop ≤ b.start) ∧
        ∀ until_ i call page, pauseOf e = some until_ → pageOf e' = some (i, call, page) →
          until_ ≤ call.now ∨
            (∃ t, e.post.threads i = some t ∧ pastPauseCheck t = true) ∧
              ∀ b ∈ between, b.post.threads i ≠ none :=
  threads_keep_apart twoRequests_named (challengedRun_keeps _ _)

example : (events (step Service.plainLib) (World.start twoRequests) challengedRun).filterMap
    pauseOf = [1800] := by decide +kernel

example : ((events (step Service.plainLib) (World.start twoRequests) challengedRun).filterMap
    pageOf).map (fun page => (page.1, page.2.1.now)) = [(0, 0), (1, 1800)] := by decide +kernel

end Prompta.ThreadPacing
