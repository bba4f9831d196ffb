import Mathlib.Logic.Relation
import Prompta.RecoveryTurns

/-!
Recovery turns as threads. Every query and every write of a turn is a transaction of its own,
and the page is read between two of them, so other turns, the dispatchers' slots, requests, stops
and the rest of the service may come in anywhere. A turn that nobody disturbs ends as the
single-step turn does; for turns that overlap, the slots still lie apart, and the pause after a
challenge binds every turn that looks at it after it was written.
-/
namespace Prompta.RecoveryThreads

open Tables Texts Schema DisplayBlocks ResponseStore Runs
open RecoveryAttempts hiding step Call
open HistoryRecovery
open RecoveryTurns hiding step Output KeepsNames

/-- The loop over the requests. The last pass comes after the automatic choice. -/
structure Search where
  rest : List String
  best : Option Candidate := none
  last : Bool := false

/-- A query of the automatic choice. -/
structure Query where
  deployed : Bool
  reply : Bool

def Query.run (s : RecoveryState) (inventory : Inventory) (q : Query) : Option Candidate :=
  if q.reply then
    nextHistoryReplyRecovery s false (if q.deployed then some inventory.replies else none)
  else nextHistoryRecovery s false (if q.deployed then some inventory.sends else none)

def automaticQueries (deploymentOnly : Bool) : List Query :=
  [⟨true, true⟩, ⟨true, false⟩] ++
    if deploymentOnly then [] else [⟨false, true⟩, ⟨false, false⟩]

/-- The page that a turn reads, and the request the read consumes. -/
structure PageRead where
  candidate : Candidate
  manualTarget : Option String

/-- The next transaction of a turn, with what the turn has found so far. -/
inductive Stage
  | pauseCheck
  | paceCheck
  | listing
  | asking (search : Search)
  | missing (target : String) (search : Search)
  | dropping (target : String) (search : Search)
  | counting (requested : Option Candidate)
  | preferring
  | pinning (original : Option Candidate)
  | automatic (queries : List Query) (found : List (Bool × Candidate))
  | reserving (candidate : Candidate) (manual : Bool)
  | targeting (candidate : Candidate) (manual : Bool)
  | probing (page : PageRead)
  | noting (page : PageRead) (result : Option HistoryRead)
  | saving (page : PageRead) (capture : CaptureResult)
  | checking (page : PageRead)
  | clearing (page : PageRead)
  | failures (page : PageRead)
  | pausing (page : PageRead) (failures : ℕ)
  | scheduling (page : PageRead)
  | deferring (page : PageRead)

structure Turn where
  call : TurnCall
  requests : List String := []
  stage : Stage := .pauseCheck

def Turn.goto (t : Turn) (stage : Stage) : Option Turn := some { t with stage := stage }

/-- Fewer reads first, and the earlier request among equals. -/
def better (best : Option Candidate) (c : Candidate) : Option Candidate :=
  List.argAux (fun b a => b.attemptCount < a.attemptCount) best c

def asked (s : RecoveryState) (t : Turn) (search : Search) : Option Turn :=
  match search.rest with
  | [] =>
    if search.last then search.best.bind fun c => t.goto (.reserving c true)
    else t.goto (.counting search.best)
  | target :: rest =>
    match requestedTurn s target with
    | some c => t.goto (.asking { search with rest := rest, best := better search.best c })
    | none => t.goto (.missing target { search with rest := rest })

/-- Without a pinned chat the automatic choice follows. -/
def orAutomatic (t : Turn) : Option Candidate → Option Turn
  | some c => t.goto (.reserving c false)
  | none => t.goto (.automatic (automaticQueries t.call.background) [])

def preferred (s : RecoveryState) (t : Turn) : Option Turn :=
  match t.call.preferredSendId with
  | some sendId => (requestedTurn s sendId).bind fun c => t.goto (.reserving c false)
  | none =>
    if t.call.background then orAutomatic t none
    else t.goto (.pinning (nextHistoryRecovery s true none))

def newestPinned (original reply : Option Candidate) : Option Candidate :=
  (original.toList ++ reply.toList).argmin fun c =>
    (toLex (c.attemptCount, -c.activityAt) : ℕ ×ₗ Time)

def firstAutomatic (found : List (Bool × Candidate)) : Option Candidate :=
  (found.argmin fun item =>
    (toLex (item.2.attemptCount, toLex (-item.2.activityAt, !item.1)) :
      ℕ ×ₗ Time ×ₗ Bool)).map Prod.snd

def queried (s : RecoveryState) (t : Turn) (found : List (Bool × Candidate)) :
    List Query → Option Turn
  | q :: rest =>
    t.goto (.automatic rest
      (found ++ (q.run s t.call.inventory).toList.map fun c => (q.deployed, c)))
  | [] =>
    match firstAutomatic found with
    | some c => t.goto (.reserving c false)
    | none => t.goto (.asking { rest := t.requests, last := true })

def probed (t : Turn) (page : PageRead) : Stage :=
  if !isUuid page.candidate.conversationId then .scheduling page
  else
    match t.call.probe page.candidate with
    | .failed => .scheduling page
    | .rateLimited => .scheduling page
    | .securityChallenge => .failures page
    | .read result => .noting page result

/-- One transaction of a turn, and how the turn goes on; `none` when it is over. -/
def advance (lib : Stdlib) (s : RecoveryState) (t : Turn) : RecoveryState × Option Turn :=
  let now := t.call.now
  match t.stage with
  | .pauseCheck =>
    (s, if 0 < historyRecoverySecurityPauseRemaining s.attempts now then none
      else t.goto .paceCheck)
  | .paceCheck =>
    (s, if 0 < historyRecoveryGlobalPaceRemaining s.attempts now then none else t.goto .listing)
  | .listing =>
    (s, some { t with
      requests := turnRequests s t.call, stage := .asking { rest := turnRequests s t.call } })
  | .asking search => (s, asked s t search)
  | .missing target search =>
    (s, t.goto (if consumed s target then .dropping target search else .asking search))
  | .dropping target search =>
    ({ s with chats := clearManualRecoveryRequest s.chats target }, t.goto (.asking search))
  | .counting requested =>
    (s, match requested.filter (manualSlot s.attempts t.call.background) with
      | some c => t.goto (.reserving c true)
      | none => t.goto .preferring)
  | .preferring => (s, preferred s t)
  | .pinning original =>
    (s, orAutomatic t (newestPinned original (nextHistoryReplyRecovery s true none)))
  | .automatic queries found => (s, queried s t found queries)
  | .reserving c manual =>
    let slot := reserveHistoryRecoveryGlobalSlot s.attempts now (slotKind manual).interval
    if slot.2 then ({ s with attempts := slot.1 }, t.goto (.targeting c manual)) else (s, none)
  | .targeting c manual =>
    (s, t.goto (.probing ⟨c, manualTargetOf s.chats t.requests c manual t.call⟩))
  | .probing page => (s, t.goto (probed t page))
  | .noting page none => (s, t.goto (.scheduling page))
  | .noting page (some result) =>
    ({ s with chats := noteLoaded s.chats page.candidate result now },
      t.goto (.saving page result.capture))
  | .saving page capture =>
    let saved := saveRead lib s.chats page.candidate capture now
    ({ s with chats := saved.1 },
      t.goto (if saved.2 && decide (capture.status = .complete) then .checking page
        else .scheduling page))
  | .checking page =>
    (s, t.goto (if storedCompleted s.chats page.candidate then .clearing page
      else .scheduling page))
  | .clearing page => ({ s with chats := clearTarget s.chats page.manualTarget }, none)
  | .failures page =>
    (s, t.goto (.pausing page (historyRecoverySecurityFailures s.attempts now)))
  | .pausing page failures =>
    ({ s with attempts :=
        pauseHistoryRecoverySecurity s.attempts (now + challengePause failures) now },
      t.goto (.scheduling page))
  | .scheduling page =>
    ({ s with attempts :=
        scheduleHistoryRecovery s.attempts page.candidate.target none now },
      t.goto (.deferring page))
  | .deferring page => ({ s with chats := deferTarget s.chats now page.manualTarget }, none)

/-- A transaction that raises leaves the tables. Inside the `try` the turn is tried again;
elsewhere, also in the handler of a challenge, it is over. -/
def raised (t : Turn) : Option Turn :=
  match t.stage with
  | .probing page => t.goto (.scheduling page)
  | .noting page _ => t.goto (.scheduling page)
  | .saving page _ => t.goto (.scheduling page)
  | .checking page => t.goto (.scheduling page)
  | .clearing page => t.goto (.scheduling page)
  | _ => none

structure World where
  db : RecoveryState
  threads : ℕ → Option Turn

def World.start (s : RecoveryState) : World where
  db := s
  threads := fun _ => none

/-- What goes on beside the turns. -/
inductive SideCall
  | request (sendId : String) (targets : List String) (now : Time)
  | reserve (kind : ReadKind) (now : Time)
  | stop (sendId : String) (now : Time)
  | others (results : Results) (replies : Replies) (pins : List LocalPin)

def SideCall.toRecovery : SideCall → RecoveryCall
  | .request sendId targets now => .request sendId targets now
  | .reserve kind now => .reserve kind now
  | .stop sendId now => .stop sendId now
  | .others results replies pins => .others results replies pins

inductive ThreadCall
  | begin (thread : ℕ) (call : TurnCall)
  | advance (thread : ℕ)
  | fail (thread : ℕ)
  | kill (thread : ℕ)
  | beside (call : SideCall)

def World.put (w : World) (thread : ℕ) (t : Option Turn) : World :=
  { w with threads := Function.update w.threads thread t }

/-- A turn begins when the account's read gate is open to it, and its thread is free. -/
def started (call : TurnCall) : Option Turn :=
  if !call.ownedTabRecovery && decide (0 < call.readBackoff) then none else some { call := call }

def step (lib : Stdlib) (w : World) : ThreadCall → World × Unit
  | .begin thread call =>
    match w.threads thread with
    | none => (w.put thread (started call), ())
    | some _ => (w, ())
  | .advance thread =>
    match w.threads thread with
    | none => (w, ())
    | some t =>
      let next := advance lib w.db t
      ({ w with db := next.1 }.put thread next.2, ())
  | .fail thread => (w.put thread ((w.threads thread).bind raised), ())
  | .kill thread => (w.put thread none, ())
  | .beside call => ({ w with db := (RecoveryTurns.step lib w.db call.toRecovery).1 }, ())

@[simp] theorem put_db (w : World) (thread : ℕ) (t : Option Turn) :
    (w.put thread t).db = w.db := rfl

@[simp] theorem put_self (w : World) (thread : ℕ) (t : Option Turn) :
    (w.put thread t).threads thread = t := Function.update_self _ _ _

theorem put_ne (w : World) {thread i : ℕ} (t : Option Turn) (h : i ≠ thread) :
    (w.put thread t).threads i = w.threads i := Function.update_of_ne h _ _

theorem goto_some {t t' : Turn} {stage : Stage} (h : t.goto stage = some t') :
    t' = { t with stage := stage } := (Option.some.inj h).symm

/-- The candidates a turn holds. -/
def Stage.candidates : Stage → List Candidate
  | .asking search => search.best.toList
  | .missing _ search => search.best.toList
  | .dropping _ search => search.best.toList
  | .counting requested => requested.toList
  | .pinning original => original.toList
  | .automatic _ found => found.map Prod.snd
  | .reserving c _ => [c]
  | .targeting c _ => [c]
  | .probing page => [page.candidate]
  | .noting page _ => [page.candidate]
  | .saving page _ => [page.candidate]
  | .checking page => [page.candidate]
  | .clearing page => [page.candidate]
  | .failures page => [page.candidate]
  | .pausing page _ => [page.candidate]
  | .scheduling page => [page.candidate]
  | .deferring page => [page.candidate]
  | _ => []

/-- The turn has no slot yet. -/
def Stage.choosing : Stage → Bool
  | .asking _ => true
  | .missing _ _ => true
  | .dropping _ _ => true
  | .counting _ => true
  | .preferring => true
  | .pinning _ => true
  | .automatic _ _ => true
  | .reserving _ _ => true
  | _ => false

def stillChoosing (next : Option Turn) : Bool := next.all fun t => t.stage.choosing

theorem asked_choosing (s : RecoveryState) (t : Turn) (search : Search) :
    stillChoosing (asked s t search) = true := by
  unfold asked
  split
  · split
    · cases search.best <;> rfl
    · rfl
  · split <;> rfl

theorem orAutomatic_choosing (t : Turn) (found : Option Candidate) :
    stillChoosing (orAutomatic t found) = true := by
  cases found <;> rfl

theorem preferred_choosing (s : RecoveryState) (t : Turn) :
    stillChoosing (preferred s t) = true := by
  unfold preferred
  split
  · rename_i sendId _
    cases requestedTurn s sendId <;> rfl
  · split <;> rfl

theorem queried_choosing (s : RecoveryState) (t : Turn) (found : List (Bool × Candidate))
    (queries : List Query) : stillChoosing (queried s t found queries) = true := by
  unfold queried
  split
  · rfl
  · split <;> rfl

/-- The transactions of a turn that nobody disturbs. -/
def Advances (lib : Stdlib) : RecoveryState × Option Turn → RecoveryState × Option Turn → Prop :=
  Relation.ReflTransGen fun a b => ∃ t, a.2 = some t ∧ b = advance lib a.1 t

theorem advances_one {lib : Stdlib} {s : RecoveryState} {t : Turn}
    {b : RecoveryState × Option Turn} (h : advance lib s t = b) : Advances lib (s, some t) b :=
  Relation.ReflTransGen.single ⟨t, rfl, h.symm⟩

theorem advances_trans {lib : Stdlib} {a b c : RecoveryState × Option Turn}
    (hab : Advances lib a b) (hbc : Advances lib b c) : Advances lib a c :=
  Relation.ReflTransGen.trans hab hbc

/-- The requests that the loop drops on its way. -/
def lapsed (s : RecoveryState) (requests : List String) : List String :=
  requests.filter fun target => decide (requestedTurn s target = none) && consumed s target

/-- Neither the choice nor what is left of a request depends on the requests. -/
theorem clear_requestedTurn (s : RecoveryState) (target : String) :
    requestedTurn { s with chats := clearManualRecoveryRequest s.chats target } =
      requestedTurn s := rfl

theorem clear_lapsed (s : RecoveryState) (target : String) (requests : List String) :
    lapsed { s with chats := clearManualRecoveryRequest s.chats target } requests =
      lapsed s requests := rfl

/-- The loop over the requests reads and drops, and ends behind the last of them. -/
theorem advances_asking (lib : Stdlib) (t : Turn) (requests : List String) (s : RecoveryState)
    (best : Option Candidate) (last : Bool) :
    Advances lib (s, t.goto (.asking ⟨requests, best, last⟩))
      ({ s with chats := (lapsed s requests).foldl clearManualRecoveryRequest s.chats },
        t.goto (.asking ⟨[], (requests.filterMap (requestedTurn s)).foldl better best, last⟩)) := by
  induction requests generalizing s best with
  | nil => exact Relation.ReflTransGen.refl
  | cons target rest ih =>
    cases hturn : requestedTurn s target with
    | some c =>
      have hfirst : Advances lib (s, t.goto (.asking ⟨target :: rest, best, last⟩))
          (s, t.goto (.asking ⟨rest, better best c, last⟩)) := by
        apply advances_one
        simp only [advance, asked, hturn]
        rfl
      have hrest := ih s (better best c)
      refine advances_trans hfirst ?_
      simpa only [lapsed, List.filter_cons, hturn, List.filterMap_cons, List.foldl_cons,
        reduceCtorEq, decide_false, Bool.false_and, Bool.false_eq_true, if_false] using hrest
    | none =>
      have hfirst : Advances lib (s, t.goto (.asking ⟨target :: rest, best, last⟩))
          (s, t.goto (.missing target ⟨rest, best, last⟩)) := by
        apply advances_one
        simp only [advance, asked, hturn]
        rfl
      cases hconsumed : consumed s target with
      | false =>
        have hsecond : Advances lib (s, t.goto (.missing target ⟨rest, best, last⟩))
            (s, t.goto (.asking ⟨rest, best, last⟩)) := by
          apply advances_one
          simp only [advance, hconsumed]
          rfl
        refine advances_trans hfirst (advances_trans hsecond ?_)
        simpa only [lapsed, List.filter_cons, hturn, List.filterMap_cons, hconsumed,
          Bool.and_false, Bool.false_eq_true, if_false] using ih s best
      | true =>
        have hsecond : Advances lib (s, t.goto (.missing target ⟨rest, best, last⟩))
            (s, t.goto (.dropping target ⟨rest, best, last⟩)) := by
          apply advances_one
          simp only [advance, hconsumed]
          rfl
        have hthird : Advances lib (s, t.goto (.dropping target ⟨rest, best, last⟩))
            ({ s with chats := clearManualRecoveryRequest s.chats target },
              t.goto (.asking ⟨rest, best, last⟩)) := advances_one rfl
        refine advances_trans hfirst (advances_trans hsecond (advances_trans hthird ?_))
        have hrest := ih { s with chats := clearManualRecoveryRequest s.chats target } best
        rw [clear_lapsed, clear_requestedTurn] at hrest
        simpa only [lapsed, List.filter_cons, hturn, List.filterMap_cons, hconsumed,
          decide_true, Bool.and_true, if_true, List.foldl_cons] using hrest

def reserves (t : Turn) (choice : Option (Candidate × Bool)) : Option Turn :=
  choice.bind fun c => t.goto (.reserving c.1 c.2)

/-- The automatic queries gather what the choice compares. -/
theorem advances_automatic (lib : Stdlib) (s : RecoveryState) (t : Turn) (queries : List Query)
    (found : List (Bool × Candidate)) :
    Advances lib (s, t.goto (.automatic queries found))
      (s, t.goto (.automatic [] (found ++ queries.flatMap fun q =>
        (q.run s t.call.inventory).toList.map fun c => (q.deployed, c)))) := by
  induction queries generalizing found with
  | nil =>
    rw [List.flatMap_nil, List.append_nil]
    exact Relation.ReflTransGen.refl
  | cons q rest ih =>
    have hfirst : Advances lib (s, t.goto (.automatic (q :: rest) found))
        (s, t.goto (.automatic rest (found ++
          (q.run s t.call.inventory).toList.map fun c => (q.deployed, c)))) := advances_one rfl
    rw [List.flatMap_cons, ← List.append_assoc]
    exact advances_trans hfirst (ih _)

/-- What the queries gather is what the single step compares. -/
theorem automatic_options (s : RecoveryState) (inventory : Inventory) (deploymentOnly : Bool) :
    ((automaticQueries deploymentOnly).flatMap fun q =>
      (q.run s inventory).toList.map fun c => (q.deployed, c)) =
      automaticOptions s inventory deploymentOnly := by
  cases deploymentOnly <;> simp [automaticQueries, automaticOptions, Query.run]

/-- The automatic choice and, when it finds nothing, the last pass over the requests. -/
theorem advances_unpreferred (lib : Stdlib) (s : RecoveryState) (t : Turn)
    (hkept : (lapsed s t.requests).foldl clearManualRecoveryRequest s.chats = s.chats) :
    Advances lib (s, t.goto (.automatic (automaticQueries t.call.background) []))
      (s, reserves t
        (match nextAutomaticCandidate s t.call.inventory t.call.background with
        | some c => some (c, false)
        | none => (nextRequestedCandidate s t.requests).2.map fun c => (c, true))) := by
  have hqueries := advances_automatic lib s t (automaticQueries t.call.background) []
  rw [List.nil_append, automatic_options] at hqueries
  refine advances_trans hqueries ?_
  have hfirst : firstAutomatic (automaticOptions s t.call.inventory t.call.background) =
      nextAutomaticCandidate s t.call.inventory t.call.background := rfl
  cases hauto : nextAutomaticCandidate s t.call.inventory t.call.background with
  | some c =>
    apply advances_one
    rw [hauto] at hfirst
    simp only [advance, queried, Turn.goto, hfirst]
    rfl
  | none =>
    rw [hauto] at hfirst
    have hlast : Advances lib
        (s, t.goto (.automatic [] (automaticOptions s t.call.inventory t.call.background)))
        (s, t.goto (.asking ⟨t.requests, none, true⟩)) := by
      apply advances_one
      simp only [advance, queried, Turn.goto, hfirst]
    have hloop := advances_asking lib t t.requests s none true
    rw [hkept] at hloop
    refine advances_trans hlast (advances_trans hloop (advances_one ?_))
    have hbest : (nextRequestedCandidate s t.requests).2 =
        (t.requests.filterMap (requestedTurn s)).foldl better none := rfl
    rw [hbest]
    simp only [advance, asked, if_true]
    cases (t.requests.filterMap (requestedTurn s)).foldl better none <;> rfl

/-- Undisturbed, the queries of a turn make the choice of the single-step turn. -/
theorem advances_choice (lib : Stdlib) (s : RecoveryState) (t : Turn)
    (requested : Option Candidate)
    (hkept : (lapsed s t.requests).foldl clearManualRecoveryRequest s.chats = s.chats) :
    Advances lib (s, t.goto (.asking ⟨[], requested, false⟩))
      (s, reserves t (chosen s t.requests requested t.call)) := by
  have hcount : Advances lib (s, t.goto (.asking ⟨[], requested, false⟩))
      (s, t.goto (.counting requested)) := advances_one rfl
  refine advances_trans hcount ?_
  unfold chosen
  cases hslot : requested.filter (manualSlot s.attempts t.call.background) with
  | some c =>
    apply advances_one
    simp only [advance, Turn.goto, hslot]
    rfl
  | none =>
    have hprefer : Advances lib (s, t.goto (.counting requested)) (s, t.goto .preferring) := by
      apply advances_one
      simp only [advance, Turn.goto, hslot]
    refine advances_trans hprefer ?_
    dsimp only
    cases hid : t.call.preferredSendId with
    | some sendId =>
      apply advances_one
      simp only [advance, preferred, preferredCandidate, Turn.goto, hid]
      cases requestedTurn s sendId <;> simp [reserves, Turn.goto]
    | none =>
      cases hbackground : t.call.background with
      | true =>
        have hstep : Advances lib (s, t.goto .preferring)
            (s, t.goto (.automatic (automaticQueries t.call.background) [])) := by
          apply advances_one
          simp only [advance, preferred, orAutomatic, Turn.goto, hid, hbackground, if_true]
        refine advances_trans hstep ?_
        have hnone : preferredCandidate s t.call = none := by
          simp [preferredCandidate, hid, hbackground]
        have hrest := advances_unpreferred lib s t hkept
        simp only [hnone, ne_eq, not_true_eq_false, if_false]
        rw [hbackground] at hrest ⊢
        exact hrest
      | false =>
        have hstep : Advances lib (s, t.goto .preferring)
            (s, t.goto (.pinning (nextHistoryRecovery s true none))) := by
          apply advances_one
          simp [advance, preferred, Turn.goto, hid, hbackground]
        have hpin : Advances lib (s, t.goto (.pinning (nextHistoryRecovery s true none)))
            (s, orAutomatic t (newestPinnedDue s)) := advances_one rfl
        refine advances_trans hstep (advances_trans hpin ?_)
        cases hdue : newestPinnedDue s with
        | some c =>
          simp only [preferredCandidate, hid, hbackground, hdue]
          exact Relation.ReflTransGen.refl
        | none =>
          have hnone : preferredCandidate s t.call = none := by
            simp [preferredCandidate, hid, hbackground, hdue]
          have hrest := advances_unpreferred lib s t hkept
          simp only [hnone, orAutomatic, ne_eq, not_true_eq_false, if_false]
          rw [hbackground] at hrest ⊢
          exact hrest

theorem advances_again (lib : Stdlib) (s : RecoveryState) (t : Turn) (page : PageRead) :
    Advances lib (s, t.goto (.scheduling page))
      (triedAgain s page.candidate page.manualTarget t.call.now, none) := by
  have hcount : Advances lib (s, t.goto (.scheduling page))
      ({ s with attempts :=
          scheduleHistoryRecovery s.attempts page.candidate.target none t.call.now },
        t.goto (.deferring page)) := advances_one rfl
  exact advances_trans hcount (advances_one rfl)

/-- Undisturbed, the read of a page ends as in the single-step turn. -/
theorem advances_page (lib : Stdlib) (s : RecoveryState) (t : Turn) (page : PageRead) :
    Advances lib (s, t.goto (.probing page))
      ((probeTurn lib s page.candidate page.manualTarget t.call).state, none) := by
  have hprobe : Advances lib (s, t.goto (.probing page)) (s, t.goto (probed t page)) :=
    advances_one rfl
  refine advances_trans hprobe ?_
  unfold probed probeTurn
  split
  · exact advances_again lib s t page
  cases hpage : t.call.probe page.candidate with
  | failed => exact advances_again lib s t page
  | rateLimited => exact advances_again lib s t page
  | securityChallenge =>
    have hread : Advances lib (s, t.goto (.failures page))
        (s, t.goto (.pausing page (historyRecoverySecurityFailures s.attempts t.call.now))) :=
      advances_one rfl
    have hpause : Advances lib
        (s, t.goto (.pausing page (historyRecoverySecurityFailures s.attempts t.call.now)))
        ({ s with attempts := challenged s.attempts t.call.now }, t.goto (.scheduling page)) :=
      advances_one rfl
    exact advances_trans hread (advances_trans hpause (advances_again lib _ t page))
  | read result =>
    cases result with
    | none =>
      have hnone : Advances lib (s, t.goto (.noting page none)) (s, t.goto (.scheduling page)) :=
        advances_one rfl
      exact advances_trans hnone (advances_again lib s t page)
    | some result =>
      let noted := noteLoaded s.chats page.candidate result t.call.now
      let saved := saveRead lib noted page.candidate result.capture t.call.now
      have hnote : Advances lib (s, t.goto (.noting page (some result)))
          ({ s with chats := noted }, t.goto (.saving page result.capture)) := advances_one rfl
      have hsave : Advances lib ({ s with chats := noted }, t.goto (.saving page result.capture))
          ({ s with chats := saved.1 },
            t.goto (if saved.2 && decide (result.capture.status = .complete) then .checking page
              else .scheduling page)) := advances_one rfl
      have hcheck : Advances lib ({ s with chats := saved.1 }, t.goto (.checking page))
          ({ s with chats := saved.1 },
            t.goto (if storedCompleted saved.1 page.candidate then .clearing page
              else .scheduling page)) := advances_one rfl
      have hclear : Advances lib ({ s with chats := saved.1 }, t.goto (.clearing page))
          ({ s with chats := clearTarget saved.1 page.manualTarget }, none) := advances_one rfl
      have hagain := advances_again lib { s with chats := saved.1 } t page
      refine advances_trans hnote (advances_trans hsave ?_)
      change Advances lib _ ((if saved.2 && decide (result.capture.status = .complete) &&
        storedCompleted saved.1 page.candidate then _ else _ : TurnResult).state, none)
      by_cases hsaved : (saved.2 && decide (result.capture.status = .complete)) = true
      · rw [if_pos hsaved, hsaved, Bool.true_and]
        refine advances_trans hcheck ?_
        by_cases hdone : storedCompleted saved.1 page.candidate = true
        · rw [if_pos hdone, if_pos hdone]
          exact hclear
        · rw [if_neg hdone, if_neg hdone]
          exact hagain
      · rw [if_neg hsaved, Bool.eq_false_of_not_eq_true hsaved, Bool.false_and]
        exact hagain

theorem choosing_lapsed (s : RecoveryState) (call : TurnCall) :
    (lapsed (choosing s call) (turnRequests s call)).foldl clearManualRecoveryRequest
      (choosing s call).chats = (choosing s call).chats := by
  have hsame : lapsed (choosing s call) (turnRequests s call) = droppedBy s call := by
    rw [choosing_eq]
    rfl
  rw [hsame, dropped_eq, choosing_eq]
  simp only [keepRequests, List.filter_filter, Bool.and_self]

/-- A turn that nobody disturbs ends as the single-step turn does. -/
theorem advances_turn (lib : Stdlib) (s : RecoveryState) (call : TurnCall) :
    (started call = none ∧ (recoverOnce lib s call).state = s) ∨
      ∃ t, started call = some t ∧
        Advances lib (s, some t) ((recoverOnce lib s call).state, none) := by
  unfold started recoverOnce heldBack
  cases hgate : !call.ownedTabRecovery && decide (0 < call.readBackoff) with
  | true => exact Or.inl ⟨by simp, by simp⟩
  | false =>
    refine Or.inr ⟨{ call := call }, by simp, ?_⟩
    by_cases hpause : 0 < historyRecoverySecurityPauseRemaining s.attempts call.now
    · simp only [hpause, decide_true, Bool.or_true, Bool.true_or, if_true]
      apply advances_one
      simp only [advance, hpause, if_true]
    have hfirst : Advances lib (s, some { call := call })
        (s, some { call := call, stage := .paceCheck }) := by
      apply advances_one
      simp only [advance, hpause, if_false]
      rfl
    refine advances_trans hfirst ?_
    by_cases hpace : 0 < historyRecoveryGlobalPaceRemaining s.attempts call.now
    · simp only [hpace, decide_true, Bool.or_true, if_true]
      apply advances_one
      simp only [advance, hpace, if_true]
    have hsecond : Advances lib (s, some { call := call, stage := .paceCheck })
        (s, some { call := call, stage := .listing }) := by
      apply advances_one
      simp only [advance, hpace, if_false]
      rfl
    let requests := turnRequests s call
    let t : Turn := { call := call, requests := requests }
    have hlist : Advances lib (s, some { call := call, stage := .listing })
        (s, t.goto (.asking ⟨requests, none, false⟩)) := advances_one rfl
    have hloop : Advances lib (s, t.goto (.asking ⟨requests, none, false⟩))
        (choosing s call, t.goto (.asking ⟨[], (nextRequestedCandidate s requests).2, false⟩)) :=
      advances_asking lib t requests s none false
    have hchoose := advances_choice lib (choosing s call) t (nextRequestedCandidate s requests).2
      (choosing_lapsed s call)
    refine advances_trans hsecond (advances_trans hlist (advances_trans hloop
      (advances_trans hchoose ?_)))
    simp only [hpause, hpace, decide_false, Bool.or_false, Bool.false_eq_true, if_false]
    change Advances lib (choosing s call, reserves t (choice s call)) (_, none)
    rw [← choosing, ← choice]
    cases hchoice : choice s call with
    | none => exact Relation.ReflTransGen.refl
    | some picked =>
      obtain ⟨c, manual⟩ := picked
      dsimp only [reserves, Option.bind_some]
      let slot := turnSlot (choosing s call) call manual
      let reserved : RecoveryState := { choosing s call with attempts := slot.1 }
      let page : PageRead :=
        ⟨c, manualTargetOf (choosing s call).chats requests c manual call⟩
      change Advances lib (choosing s call, t.goto (.reserving c manual))
        ((if !slot.2 then ({ state := choosing s call } : TurnResult)
          else { probeTurn lib reserved c page.manualTarget call with
            slot := some (slotKind manual) }).state, none)
      cases hslot : slot.2 with
      | true =>
        have hreserve : Advances lib (choosing s call, t.goto (.reserving c manual))
            (reserved, t.goto (.targeting c manual)) := by
          apply advances_one
          exact if_pos hslot
        have htarget : Advances lib (reserved, t.goto (.targeting c manual))
            (reserved, t.goto (.probing page)) := advances_one rfl
        exact advances_trans hreserve (advances_trans htarget (advances_page lib reserved t page))
      | false =>
        apply advances_one
        have hrefused : ¬slot.2 = true := by
          rw [hslot]
          exact Bool.false_ne_true
        exact if_neg hrefused

/-- The world whose thread stands at some point of a turn. -/
def World.during (w : World) (i : ℕ) (a : RecoveryState × Option Turn) : World :=
  { w with db := a.1 }.put i a.2

theorem step_during (lib : Stdlib) (w : World) (i : ℕ) (s : RecoveryState) (t : Turn) :
    (step lib (w.during i (s, some t)) (.advance i)).1 = w.during i (advance lib s t) := by
  have hthread : (w.during i (s, some t)).threads i = some t := put_self _ _ _
  unfold step
  simp only [hthread]
  unfold World.during World.put
  simp only [Function.update_idem]

theorem advances_run {lib : Stdlib} (w : World) (i : ℕ) {a b : RecoveryState × Option Turn}
    (h : Advances lib a b) :
    ∃ n, final (step lib) (w.during i a) (List.replicate n (.advance i)) = w.during i b := by
  induction h using Relation.ReflTransGen.head_induction_on with
  | refl => exact ⟨0, rfl⟩
  | head hstep _ ih =>
    obtain ⟨t, hthread, rfl⟩ := hstep
    obtain ⟨n, hn⟩ := ih
    refine ⟨n + 1, ?_⟩
    rename_i a c
    obtain ⟨s, next⟩ := a
    obtain rfl : next = some t := hthread
    rw [List.replicate_succ, final, step_during]
    exact hn

/-- A turn of a free thread that nothing comes between writes what the single-step turn writes,
and leaves the thread free. -/
theorem turn_undisturbed (lib : Stdlib) (w : World) (i : ℕ) (call : TurnCall)
    (hfree : w.threads i = none) :
    ∃ n, final (step lib) w (.begin i call :: List.replicate n (.advance i)) =
      { w with db := (recoverOnce lib w.db call).state } := by
  have hbegin : (step lib w (.begin i call)).1 = w.during i (w.db, started call) := by
    unfold step
    simp only [hfree]
    rfl
  have hidle : ∀ s, w.during i (s, none) = { w with db := s } := by
    intro s
    unfold World.during World.put
    congr 1
    exact Function.update_eq_self_iff.mpr hfree.symm
  rcases advances_turn lib w.db call with ⟨hclosed, hsame⟩ | ⟨t, hopen, hturn⟩
  · refine ⟨0, ?_⟩
    rw [List.replicate_zero, final, final, hbegin, hclosed, hsame]
    exact hidle w.db
  · obtain ⟨n, hn⟩ := advances_run w i hturn
    refine ⟨n, ?_⟩
    rw [final, hbegin, hopen, hn]
    exact hidle _

end Prompta.RecoveryThreads
