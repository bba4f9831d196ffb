import Prompta.ComposerDrafts
import Prompta.Runs

/-!
What the composer owes to a chat: the draft typed last, and every reply that has failed since.
A ledger beside the tab tells what is owed, and what each send takes along until its result.
As long as no step cuts a draft or forgets the only copy of one, what is owed to a chat is in
its draft, on the page and where a composer finds it again.
-/
namespace Prompta.DraftsKept

open RecentMaps ComposerDrafts

def hydratedDraft (m : Memory) (key : DraftKey) : DraftText := (savedDraft m key).getD []

def storedDraft (m : Memory) (key : DraftKey) : DraftText :=
  ((stored m key).map fun cached => cached.take draftLimit).getD []

section Ledger

/-- What is owed to each chat, and what each send takes along. -/
structure Ledger where
  owed : String → List DraftText
  carried : ℕ → List DraftText

structure Watched where
  tab : Tab
  ledger : Ledger

/-- A change of what is owed to the chat of the key. -/
def owe (owed : String → List DraftText) (key : Option DraftKey)
    (change : List DraftText → List DraftText) : String → List DraftText :=
  match key with
  | some (.reply chatId) => Function.update owed chatId (change (owed chatId))
  | _ => owed

def owedIn (owed : String → List DraftText) (key : Option DraftKey) : List DraftText :=
  match key with
  | some (.reply chatId) => owed chatId
  | _ => []

/-- A reply takes along what is owed to its chat, a held send nothing. -/
def noteSubmit (t : Tab) (l : Ledger) (i : ℕ) (useFallback : Bool) : Ledger :=
  let c := t.controllers i
  if c.accepts useFallback then
    if c.frees useFallback then
      { owed := owe l.owed c.draftStorageKey fun _ => []
        carried :=
          Function.update l.carried t.sends.length (c.draft :: owedIn l.owed c.draftStorageKey) }
    else { l with carried := Function.update l.carried t.sends.length [] }
  else l

def delivered (l : Ledger) (send : Send) : Ledger :=
  { l with
    owed := owe l.owed send.key fun texts => texts.filter fun x => decide ¬x <:+: send.submitted }

/-- A failed reply gives back what it has taken along. -/
def noteSettle (l : Ledger) (send : Send) (n : ℕ) : Outcome → Ledger
  | .ok => delivered l send
  | _ =>
    if send.waiting = .freed then
      { l with owed := owe l.owed send.key fun texts => texts ++ l.carried n }
    else l

/-- The draft that the user types replaces what was owed. -/
def note (t : Tab) (l : Ledger) : Happening → Ledger
  | .edit value _ =>
    match t.mounted with
    | some i => { l with owed := owe l.owed (t.controllers i).draftStorageKey fun _ => [value] }
    | none => l
  | .submit useFallback _ =>
    match t.mounted with
    | some i => noteSubmit t l i useFallback
    | none => l
  | .settle n outcome _ _ =>
    match t.sends[n]? with
    | some send => if send.settled then l else noteSettle l send n outcome
    | none => l
  | _ => l

def watch (w : Watched) (h : Happening) : Watched × Unit :=
  (⟨happen w.tab h, note w.tab w.ledger h⟩, ())

end Ledger

section Conditions

/-- The draft of a chat is not cut. -/
def Fits (key : Option DraftKey) (value : DraftText) : Prop :=
  ∀ chatId, key = some (.reply chatId) → value.length ≤ draftLimit

/-- Setting the key pushes no draft of a chat out of the tab that the browser does not have. -/
def Spares (m : Memory) (key : Option DraftKey) (value : DraftText) : Prop :=
  ∀ k chatId draft, key = some k →
    m.drafts.pushedOut draftCapacity k (value.take draftLimit) = some (.reply chatId) →
    m.drafts.lookup (.reply chatId) = some draft →
    draft = [] ∨ storedDraft m (.reply chatId) = draft

/-- A failed reply finds the draft of its chat in the tab, or there is none but what was sent. -/
def Finds (m : Memory) (send : Send) : Prop :=
  ∀ chatId, send.key = some (.reply chatId) → m.drafts.lookup (.reply chatId) = none →
    storedDraft m (.reply chatId) = [] ∨ storedDraft m (.reply chatId) = send.submitted

/-- The chat of a failed reply is not on the page in another composer than the one that has
sent it. -/
def Returns (t : Tab) (send : Send) : Prop :=
  ∀ i chatId, t.mounted = some i → send.key = some (.reply chatId) →
    (t.controllers i).draftStorageKey = send.key → i = send.owner

/-- A held send that has been delivered takes no draft away that another composer has changed. -/
def Undisturbed (t : Tab) (send : Send) (generation : ℕ) : Prop :=
  ∀ chatId, send.key = some (.reply chatId) → t.mounted ≠ some send.owner →
    (t.controllers send.owner).current send generation = true →
    (t.controllers send.owner).draft = send.submitted →
    hydratedDraft t.memory (.reply chatId) = send.submitted

def SettleAllowed (t : Tab) (send : Send) (outcome : Outcome) : Prop :=
  match send.waiting, outcome with
  | .held generation _, .ok => Undisturbed t send generation
  | .held _ _, _ => True
  | .freed, .ok => True
  | .freed, _ =>
    Fits send.key (restored t.memory send) ∧ Spares t.memory send.key (restored t.memory send) ∧
      Finds t.memory send ∧ Returns t send

def HydrateAllowed (t : Tab) (i : ℕ) : Prop :=
  ∀ key cached, (t.controllers i).draftStorageKey = some key →
    (t.controllers i).hydratedKey ≠ some key → t.memory.drafts.lookup key = none →
    stored t.memory key = some cached →
    Spares t.memory (some key) (cached.take draftLimit)

def IntentAllowed (t : Tab) (i : ℕ) : Prop :=
  (t.controllers i).takesIntent = true →
    Spares t.memory (t.controllers i).draftStorageKey (t.controllers i).restoreDraft

/-- An intent that comes along with another chat does not go over a draft of that chat. -/
def IntentWaits (t : Tab) (i : ℕ) : Prop :=
  ∀ chatId, (t.controllers i).takesIntent = true →
    (t.controllers i).draftStorageKey = some (.reply chatId) →
    (t.controllers i).hydratedKey ≠ some (.reply chatId) →
    hydratedDraft t.memory (.reply chatId) = []

def EffectsAllowed (t : Tab) (i : ℕ) (intentFirst writes : Bool) : Prop :=
  let t' := if intentFirst then applyIntent t i writes else t
  (intentFirst = true → IntentAllowed t i ∧ IntentWaits t i) ∧ HydrateAllowed t' i ∧
    IntentAllowed (hydrate t' i) i

/-- The steps that cut no draft and forget no only copy. -/
def Allowed (w : Watched) : Happening → Prop
  | .edit value _ =>
    ∀ i, w.tab.mounted = some i →
      Fits (w.tab.controllers i).draftStorageKey value ∧
        Spares w.tab.memory (w.tab.controllers i).draftStorageKey value
  | .submit _ _ => True
  | .settle n outcome _ _ =>
    ∀ send, w.tab.sends[n]? = some send → send.settled = false → SettleAllowed w.tab send outcome
  | .props next intentFirst writes =>
    ∀ i, w.tab.mounted = some i →
      EffectsAllowed (w.tab.setController i { w.tab.controllers i with toProps := next }) i
        intentFirst writes
  | .unmount => True
  | .mount props writes => EffectsAllowed (w.tab.addController props) w.tab.created false writes

end Conditions

section MemoryLemmas

variable {m : Memory} {key : Option DraftKey} {k : DraftKey} {chatId : String}
  {value : DraftText} {writes : Bool}

theorem hydratedDraft_some {draft : DraftText} (h : m.drafts.lookup k = some draft) :
    hydratedDraft m k = draft := by
  unfold hydratedDraft savedDraft
  rw [h]
  rfl

theorem hydratedDraft_none (h : m.drafts.lookup k = none) :
    hydratedDraft m k = storedDraft m k := by
  unfold hydratedDraft savedDraft storedDraft
  rw [h]

theorem hydratedDraft_congr {m' : Memory} (hdrafts : m'.drafts.lookup k = m.drafts.lookup k)
    (hstored : stored m' k = stored m k) : hydratedDraft m' k = hydratedDraft m k := by
  unfold hydratedDraft savedDraft
  rw [hdrafts, hstored]

theorem lookup_setItem : (setItem m key value writes).drafts = m.drafts := by
  unfold setItem
  split
  · rfl
  · split
    · rfl
    · rfl

theorem stored_setItem_ne (hne : key ≠ some k) :
    stored (setItem m key value writes) k = stored m k := by
  unfold setItem
  split
  · rfl
  · next k' =>
    split
    · rfl
    · have hk : k ≠ k' := by
        intro h
        exact hne (congrArg some h.symm)
      simp only [stored, Function.update_of_ne hk]

theorem hydratedDraft_keep_self :
    hydratedDraft (keepDraft m (some k) value writes) k = value.take draftLimit := by
  apply hydratedDraft_some
  rw [keepDraft, lookup_setItem]
  exact RecentMap.lookup_remember_self (by decide)

/-- Other drafts of chats stay when a draft is remembered. -/
theorem inside_remember {x : DraftText} (hne : key ≠ some (.reply chatId))
    (hspares : Spares m key value) (hx : x <:+: hydratedDraft m (.reply chatId)) :
    x <:+: hydratedDraft (rememberComposerDraft m key value) (.reply chatId) := by
  cases key with
  | none => exact hx
  | some k =>
    have hk : DraftKey.reply chatId ≠ k := by
      intro h
      exact hne (congrArg some h.symm)
    by_cases hout : m.drafts.pushedOut draftCapacity k (value.take draftLimit) =
        some (.reply chatId)
    · have hgone : (rememberComposerDraft m (some k) value).drafts.lookup (.reply chatId) = none :=
        RecentMap.lookup_remember_pushedOut hout
      have hstored : storedDraft (rememberComposerDraft m (some k) value) (.reply chatId) =
          storedDraft m (.reply chatId) := rfl
      rw [hydratedDraft_none hgone, hstored]
      cases hlookup : m.drafts.lookup (.reply chatId) with
      | none => rwa [← hydratedDraft_none hlookup]
      | some draft =>
        rw [hydratedDraft_some hlookup] at hx
        rcases hspares k chatId draft rfl hout hlookup with hempty | hsame
        · rw [hempty] at hx
          rw [List.infix_nil.mp hx]
          exact List.nil_infix
        · rwa [hsame]
    · have hsame : hydratedDraft (rememberComposerDraft m (some k) value) (.reply chatId) =
          hydratedDraft m (.reply chatId) :=
        hydratedDraft_congr (RecentMap.lookup_remember_ne hk hout) rfl
      rwa [hsame]

/-- Keeping a draft of one chat leaves what another chat finds. -/
theorem inside_keep {x : DraftText} (hne : key ≠ some (.reply chatId))
    (hspares : Spares m key value) (hx : x <:+: hydratedDraft m (.reply chatId)) :
    x <:+: hydratedDraft (keepDraft m key value writes) (.reply chatId) := by
  have hsame : hydratedDraft (keepDraft m key value writes) (.reply chatId) =
      hydratedDraft (rememberComposerDraft m key value) (.reply chatId) := by
    apply hydratedDraft_congr
    · rw [keepDraft, lookup_setItem]
    · rw [keepDraft, stored_setItem_ne hne]
  rw [hsame]
  exact inside_remember hne hspares hx

theorem hydratedDraft_clear_ne (hne : key ≠ some k) :
    hydratedDraft (clearSubmitted m key value writes) k = hydratedDraft m k := by
  cases key with
  | none => rfl
  | some k' =>
    have hk : k ≠ k' := by
      intro h
      exact hne (congrArg some h.symm)
    apply hydratedDraft_congr
    · unfold clearSubmitted
      dsimp only
      split
      · exact AList.lookup_erase_ne hk
      · exact AList.lookup_erase_ne hk
    · unfold clearSubmitted
      dsimp only
      split
      · simp only [stored, Function.update_of_ne hk]
        rfl
      · rfl

/-- A draft that is put into the map from the storage is found there as before. -/
theorem inside_cache {x : DraftText}
    (hspares : ∀ cached, m.drafts.lookup k = none → stored m k = some cached →
      Spares m (some k) (cached.take draftLimit))
    (hx : x <:+: hydratedDraft m (.reply chatId)) :
    x <:+: hydratedDraft (cacheDraft m k) (.reply chatId) := by
  unfold cacheDraft
  split
  · next cached hlookup hstored =>
    by_cases hk : k = .reply chatId
    · subst hk
      have hself : hydratedDraft (rememberComposerDraft m (some (.reply chatId))
          (cached.take draftLimit)) (.reply chatId) = (cached.take draftLimit).take draftLimit :=
        hydratedDraft_some (RecentMap.lookup_remember_self (by decide))
      rw [hydratedDraft_none hlookup, storedDraft, hstored] at hx
      rw [hself, List.take_take, Nat.min_self]
      exact hx
    · have hne : some k ≠ some (DraftKey.reply chatId) := by
        intro h
        exact hk (Option.some.inj h)
      exact inside_remember hne (hspares cached hlookup hstored) hx
  · exact hx

end MemoryLemmas

section Kept

/-- What is owed to the chats is in the drafts that a composer finds. -/
def Saved (m : Memory) (owed : String → List DraftText) : Prop :=
  ∀ chatId, ∀ x ∈ owed chatId, x <:+: hydratedDraft m (.reply chatId)

/-- What is owed to the chat of a composer is in its draft. A composer that has no draft of its
own owes nothing. -/
def Shows (c : Controller) (owed : String → List DraftText) : Prop :=
  ∀ chatId, c.draftStorageKey = some (.reply chatId) →
    ∀ x ∈ owed chatId, x <:+: c.draft ∧ (c.hasLocalDraft = false → x = [])

/-- What is owed to a chat is in its draft, as it is shown on the page and as a composer shows it
that comes back to the chat. -/
structure Kept (t : Tab) (owed : String → List DraftText) : Prop where
  hydrated : Saved t.memory owed
  shown : ∀ i chatId, t.mounted = some i →
    (t.controllers i).draftStorageKey = some (.reply chatId) →
    ∀ x ∈ owed chatId, x <:+: (t.controllers i).draft

/-- A send takes along only what is in its text. -/
def Carries (t : Tab) (l : Ledger) : Prop :=
  ∀ n send, t.sends[n]? = some send → ∀ x ∈ l.carried n, x <:+: send.submitted

structure Inv (t : Tab) (l : Ledger) : Prop where
  saved : Saved t.memory l.owed
  shows : ∀ i, t.mounted = some i → Shows (t.controllers i) l.owed
  followed : ∀ i, t.mounted = some i →
    (t.controllers i).hydratedKey = (t.controllers i).draftStorageKey
  carries : Carries t l

theorem Inv.kept {t : Tab} {l : Ledger} (h : Inv t l) : Kept t l.owed :=
  ⟨h.saved, fun i chatId hi hkey x hx => (h.shows i hi chatId hkey x hx).1⟩

variable {owed : String → List DraftText} {key : Option DraftKey} {chatId : String}
  {change : List DraftText → List DraftText}

theorem owe_self (hkey : key = some (.reply chatId)) :
    owe owed key change chatId = change (owed chatId) := by
  rw [hkey]
  exact Function.update_self _ _ _

theorem owe_ne (hne : key ≠ some (.reply chatId)) : owe owed key change chatId = owed chatId := by
  unfold owe
  split
  · next chatId' =>
    have hchat : chatId ≠ chatId' := by
      intro h
      exact hne (by rw [h])
    rw [Function.update_of_ne hchat]
  · rfl

/-- A draft is remembered for one chat, and what is owed to it is in that draft. -/
theorem saved_keep {m : Memory} {value : DraftText} {writes : Bool}
    {owed' : String → List DraftText} (hsaved : Saved m owed) (hspares : Spares m key value)
    (hother : ∀ chatId, key ≠ some (.reply chatId) → owed' chatId = owed chatId)
    (hnew : ∀ chatId, key = some (.reply chatId) →
      ∀ x ∈ owed' chatId, x <:+: value.take draftLimit) :
    Saved (keepDraft m key value writes) owed' := by
  intro chatId x hx
  by_cases hkey : key = some (.reply chatId)
  · have hin := hnew chatId hkey x hx
    rw [hkey, hydratedDraft_keep_self]
    exact hin
  · rw [hother chatId hkey] at hx
    exact inside_keep hkey hspares (hsaved chatId x hx)

/-- The memory forgets what nothing is owed of any more. -/
theorem saved_clear {m : Memory} {value : DraftText} {writes : Bool} (hsaved : Saved m owed)
    (hnone : ∀ chatId, key = some (.reply chatId) → change (owed chatId) = []) :
    Saved (clearSubmitted m key value writes) (owe owed key change) := by
  intro chatId x hx
  by_cases hkey : key = some (.reply chatId)
  · rw [owe_self hkey, hnone chatId hkey] at hx
    cases hx
  · rw [owe_ne hkey] at hx
    rw [hydratedDraft_clear_ne hkey]
    exact hsaved chatId x hx

theorem Saved.mono {m : Memory} {owed' : String → List DraftText} (hsaved : Saved m owed)
    (hsub : ∀ chatId, ∀ x ∈ owed' chatId, x ∈ owed chatId) : Saved m owed' :=
  fun chatId x hx => hsaved chatId x (hsub chatId x hx)

theorem Shows.mono {c : Controller} {owed' : String → List DraftText} (h : Shows c owed)
    (hsub : ∀ chatId, ∀ x ∈ owed' chatId, x ∈ owed chatId) : Shows c owed' :=
  fun chatId hkey x hx => h chatId hkey x (hsub chatId x hx)

theorem owe_filter_sub {keeps : DraftText → Bool} :
    ∀ chatId, ∀ x ∈ owe owed key (fun texts => texts.filter keeps) chatId, x ∈ owed chatId := by
  intro chatId x hx
  by_cases hkey : key = some (.reply chatId)
  · rw [owe_self hkey] at hx
    exact List.mem_of_mem_filter hx
  · rwa [owe_ne hkey] at hx

end Kept

section Edits

variable {t : Tab} {l : Ledger}

/-- Only the composer on the page matters. -/
theorem inv_intro {i : ℕ} {c : Controller} (hi : t.mounted = some i) (hc : t.controllers i = c)
    (hsaved : Saved t.memory l.owed) (hshows : Shows c l.owed)
    (hfollowed : c.hydratedKey = c.draftStorageKey) (hcarries : Carries t l) : Inv t l := by
  refine ⟨hsaved, ?_, ?_, hcarries⟩
  · intro j hj
    rw [Option.some.inj (hj.symm.trans hi), hc]
    exact hshows
  · intro j hj
    rw [Option.some.inj (hj.symm.trans hi), hc]
    exact hfollowed

/-- The user's draft replaces what the key owed. -/
theorem edit_inv {i : ℕ} {value : DraftText} {writes : Bool} (h : Inv t l)
    (hi : t.mounted = some i) (hfits : Fits (t.controllers i).draftStorageKey value)
    (hspares : Spares t.memory (t.controllers i).draftStorageKey value) :
    Inv (setDraft t i value writes)
      { l with owed := owe l.owed (t.controllers i).draftStorageKey fun _ => [value] } := by
  have hc : (setDraft t i value writes).controllers i =
      { t.controllers i with draft := value, hasLocalDraft := true, fallbackAvailable := false } :=
    Function.update_self _ _ _
  refine inv_intro (by exact hi) hc ?_ ?_ ?_ ?_
  · show Saved (keepDraft t.memory _ value writes) (owe l.owed _ fun _ => [value])
    apply saved_keep h.saved hspares
    · intro chatId hne
      exact owe_ne hne
    · intro chatId hkey x hx
      rw [owe_self hkey, List.mem_singleton] at hx
      rw [hx, List.take_of_length_le (hfits chatId hkey)]
  · intro chatId hkey x hx
    dsimp only at hkey hx ⊢
    rw [owe_self hkey, List.mem_singleton] at hx
    refine ⟨?_, fun hlocal => by cases hlocal⟩
    rw [hx]
  · exact h.followed i hi
  · exact h.carries

/-- What is owed in a composer goes along with the reply. -/
theorem carried_inside {c : Controller} (h : Shows c l.owed) :
    ∀ x ∈ c.draft :: owedIn l.owed c.draftStorageKey, x <:+: c.draft := by
  intro x hx
  rcases List.mem_cons.mp hx with rfl | hx
  · exact List.infix_rfl
  · unfold owedIn at hx
    split at hx
    · next chatId hkey => exact (h chatId hkey x hx).1
    · cases hx

/-- A new send carries texts of its own. -/
theorem carries_append {send : Send} {texts : List DraftText} (h : Carries t l)
    (htexts : ∀ x ∈ texts, x <:+: send.submitted) :
    ∀ n send', (t.sends ++ [send])[n]? = some send' →
      ∀ x ∈ Function.update l.carried t.sends.length texts n, x <:+: send'.submitted := by
  intro n send' hsend x hx
  by_cases hn : n = t.sends.length
  · rw [hn, List.getElem?_concat_length] at hsend
    rw [hn, Function.update_self] at hx
    cases hsend
    exact htexts x hx
  · rw [Function.update_of_ne hn] at hx
    have hlt : n < t.sends.length := by
      have hbound := (List.getElem?_eq_some_iff.mp hsend).1
      rw [List.length_append, List.length_singleton] at hbound
      omega
    rw [List.getElem?_append_left hlt] at hsend
    exact h n send' hsend x hx

theorem submit_inv {i : ℕ} {useFallback writes : Bool} (h : Inv t l) (hi : t.mounted = some i) :
    Inv (submit t i useFallback writes) (noteSubmit t l i useFallback) := by
  have hshows := h.shows i hi
  have hfollowed := h.followed i hi
  unfold submit noteSubmit
  dsimp only
  cases hacc : (t.controllers i).accepts useFallback with
  | false =>
    rw [if_neg Bool.false_ne_true, if_neg Bool.false_ne_true]
    exact h
  | true =>
    rw [if_pos rfl, if_pos rfl]
    cases hfree : (t.controllers i).frees useFallback with
    | true =>
      rw [if_pos rfl, if_pos rfl]
      refine inv_intro (by exact hi) (by exact Function.update_self _ _ _) ?_ ?_ ?_ ?_
      · show Saved (clearSubmitted t.memory _ _ writes) (owe l.owed _ fun _ => [])
        exact saved_clear h.saved fun _ _ => rfl
      · intro chatId hkey x hx
        dsimp only at hkey hx
        rw [owe_self hkey] at hx
        cases hx
      · exact hfollowed
      · exact carries_append h.carries (carried_inside hshows)
    | false =>
      rw [if_neg Bool.false_ne_true, if_neg Bool.false_ne_true]
      refine inv_intro (by exact hi) (by exact Function.update_self _ _ _) ?_ ?_ ?_ ?_
      · exact h.saved
      · exact hshows
      · exact hfollowed
      · apply carries_append h.carries
        intro x hx
        cases hx

end Edits

section Effects

variable {t : Tab} {l : Ledger} {i : ℕ} {writes : Bool}

/-- A composer whose effects have not run yet shows what is owed, unless its key has changed. -/
structure Pending (t : Tab) (l : Ledger) (i : ℕ) : Prop where
  saved : Saved t.memory l.owed
  shows : (t.controllers i).hydratedKey = (t.controllers i).draftStorageKey →
    Shows (t.controllers i) l.owed
  carries : Carries t l

theorem pending_intro {c : Controller} (hc : t.controllers i = c) (hsaved : Saved t.memory l.owed)
    (hshows : c.hydratedKey = c.draftStorageKey → Shows c l.owed) (hcarries : Carries t l) :
    Pending t l i := by
  refine ⟨hsaved, ?_, hcarries⟩
  rw [hc]
  exact hshows

theorem takesIntent_local {c : Controller} (h : c.takesIntent = true) :
    c.hasLocalDraft = false := by
  unfold Controller.takesIntent at h
  rw [Bool.and_eq_true, Bool.not_eq_true'] at h
  exact h.2

/-- A composer that takes an intent owes nothing to its chat. -/
theorem intent_owes_nothing {chatId : String} (h : Pending t l i) (hwaits : IntentWaits t i)
    (htakes : (t.controllers i).takesIntent = true)
    (hkey : (t.controllers i).draftStorageKey = some (.reply chatId)) :
    ∀ x ∈ l.owed chatId, x = [] := by
  intro x hx
  by_cases hsame : (t.controllers i).hydratedKey = some (.reply chatId)
  · exact (h.shows (hsame.trans hkey.symm) chatId hkey x hx).2 (takesIntent_local htakes)
  · have hin := h.saved chatId x hx
    rw [hwaits chatId htakes hkey hsame] at hin
    exact List.infix_nil.mp hin

theorem applyIntent_pending (h : Pending t l i) (hallowed : IntentAllowed t i)
    (hwaits : IntentWaits t i) : Pending (applyIntent t i writes) l i := by
  unfold applyIntent
  dsimp only
  split
  · split
    · next htakes =>
      have hnone {chatId : String} := @intent_owes_nothing t l i chatId h hwaits htakes
      refine pending_intro (by exact Function.update_self _ _ _) ?_ ?_ ?_
      · show Saved (keepDraft t.memory _ _ writes) l.owed
        apply saved_keep h.saved (hallowed htakes)
        · intro chatId _
          rfl
        · intro chatId hkey x hx
          rw [hnone hkey x hx]
          exact List.nil_infix
      · intro _ chatId hkey x hx
        rw [hnone hkey x hx]
        exact ⟨List.nil_infix, fun _ => rfl⟩
      · exact h.carries
    · refine pending_intro (by exact Function.update_self _ _ _) ?_ ?_ ?_
      · exact h.saved
      · exact h.shows
      · exact h.carries
  · exact h

theorem hydrate_pending (h : Pending t l i) (hallowed : HydrateAllowed t i) :
    Pending (hydrate t i) l i := by
  unfold hydrate
  dsimp only
  split
  · exact h
  · next hne =>
    refine pending_intro (by exact Function.update_self _ _ _) ?_ ?_ ?_
    · intro chatId x hx
      cases hkey : (t.controllers i).draftStorageKey with
      | none => exact h.saved chatId x hx
      | some key =>
        rw [hkey] at hne
        exact inside_cache (fun cached => hallowed key cached hkey (Ne.symm hne))
          (h.saved chatId x hx)
    · intro _ chatId hkey x hx
      dsimp only at hkey ⊢
      have hin := h.saved chatId x hx
      rw [hkey]
      refine ⟨hin, ?_⟩
      intro hlocal
      have hnone : savedDraft t.memory (.reply chatId) = none := Option.isNone_iff_eq_none.mp (by
        rw [Option.bind_some] at hlocal
        rw [← Option.not_isSome, hlocal]
        rfl)
      rw [hydratedDraft, hnone] at hin
      exact List.infix_nil.mp hin
    · exact h.carries

theorem hydrate_followed :
    ((hydrate t i).controllers i).hydratedKey = ((hydrate t i).controllers i).draftStorageKey := by
  unfold hydrate
  dsimp only
  split
  · next hsame => exact hsame.symm
  · simp [Tab.setController]

theorem applyIntent_keys :
    ((applyIntent t i writes).controllers i).hydratedKey = (t.controllers i).hydratedKey ∧
      ((applyIntent t i writes).controllers i).draftStorageKey =
        (t.controllers i).draftStorageKey := by
  unfold applyIntent
  dsimp only
  split
  · split
    · simp [Tab.setController]
    · simp [Tab.setController]
  · exact ⟨rfl, rfl⟩

theorem applyIntent_mounted : (applyIntent t i writes).mounted = t.mounted := by
  unfold applyIntent
  dsimp only
  split
  · split
    · rfl
    · rfl
  · rfl

theorem hydrate_mounted : (hydrate t i).mounted = t.mounted := by
  unfold hydrate
  dsimp only
  split
  · rfl
  · rfl

/-- The effects bring the composer on the page in step with its key. -/
theorem effects_inv {intentFirst : Bool} (hi : t.mounted = some i) (h : Pending t l i)
    (hallowed : EffectsAllowed t i intentFirst writes) :
    Inv (runEffects t i intentFirst writes) l := by
  obtain ⟨hfirst, hhydrate, hintent⟩ := hallowed
  unfold runEffects
  generalize htab : (if intentFirst then applyIntent t i writes else t) = t' at hhydrate hintent ⊢
  have hpending : Pending t' l i := by
    cases intentFirst with
    | true =>
      rw [← htab]
      exact applyIntent_pending h (hfirst rfl).1 (hfirst rfl).2
    | false =>
      rw [← htab]
      exact h
  have hmounted : t'.mounted = some i := by
    cases intentFirst with
    | true => rw [← htab, if_pos rfl, applyIntent_mounted, hi]
    | false => rw [← htab, if_neg Bool.false_ne_true, hi]
  have hwaits : IntentWaits (hydrate t' i) i := by
    intro chatId _ hkey hne
    exact absurd (hydrate_followed.trans hkey) hne
  have hdone : Pending (applyIntent (hydrate t' i) i writes) l i :=
    applyIntent_pending (hydrate_pending hpending hhydrate) hintent hwaits
  have hkeys := @applyIntent_keys (hydrate t' i) i writes
  have hfollowed := hkeys.1.trans (hydrate_followed.trans hkeys.2.symm)
  exact inv_intro (applyIntent_mounted.trans (hydrate_mounted.trans hmounted)) rfl hdone.saved
    (hdone.shows hfollowed) hfollowed hdone.carries

theorem syncProps_inv {next : Props} {intentFirst : Bool} (h : Inv t l) (hi : t.mounted = some i)
    (hallowed : EffectsAllowed (t.setController i { t.controllers i with toProps := next }) i
      intentFirst writes) : Inv (syncProps t i next intentFirst writes) l := by
  refine effects_inv (by exact hi) ?_ hallowed
  refine pending_intro (by exact Function.update_self _ _ _) h.saved ?_ h.carries
  intro hsame chatId hkey x hx
  have hbefore : (t.controllers i).draftStorageKey = some (.reply chatId) :=
    (h.followed i hi).symm.trans (hsame.trans hkey)
  exact h.shows i hi chatId hbefore x hx

theorem mount_inv {props : Props} (h : Inv t l)
    (hallowed : EffectsAllowed (t.addController props) t.created false writes) :
    Inv (mount t props writes) l := by
  refine effects_inv rfl ?_ hallowed
  refine pending_intro (by exact Function.update_self _ _ _) h.saved ?_ h.carries
  intro hsame chatId hkey
  exact absurd (hsame.trans hkey) (by simp)

end Effects

section Results

variable {t : Tab} {l : Ledger} {send : Send} {writes : Bool}

theorem restored_submitted (m : Memory) : send.submitted <:+: restored m send := by
  unfold restored
  split
  · exact List.infix_rfl
  · rw [List.append_assoc]
    exact (List.prefix_append _ _).isInfix

/-- What the tab has by now stays in the restored draft. -/
theorem restored_hydrated {m : Memory} {chatId : String} {x : DraftText}
    (hkey : send.key = some (.reply chatId)) (hfinds : Finds m send)
    (hx : x <:+: hydratedDraft m (.reply chatId)) : x <:+: restored m send := by
  cases hlookup : m.drafts.lookup (.reply chatId) with
  | none =>
    rw [hydratedDraft_none hlookup] at hx
    rcases hfinds chatId hkey hlookup with hempty | hsame
    · rw [hempty] at hx
      rw [List.infix_nil.mp hx]
      exact List.nil_infix
    · rw [hsame] at hx
      exact hx.trans (restored_submitted m)
  | some draft =>
    rw [hydratedDraft_some hlookup] at hx
    unfold restored readComposerDraft
    rw [hkey, Option.bind_some, hlookup, Option.getD_some]
    split
    · rw [List.infix_nil.mp hx]
      exact List.nil_infix
    · exact hx.trans (List.suffix_append _ _).isInfix

/-- A failed reply comes back to its chat. -/
theorem restore_inv {n : ℕ} {fallback : Bool} (h : Inv t l)
    (hcarried : ∀ x ∈ l.carried n, x <:+: send.submitted)
    (hfits : Fits send.key (restored t.memory send))
    (hspares : Spares t.memory send.key (restored t.memory send)) (hfinds : Finds t.memory send)
    (hreturns : Returns t send) :
    Inv (restore t send fallback writes)
      { l with owed := owe l.owed send.key fun texts => texts ++ l.carried n } := by
  have hnew (chatId : String) (hkey : send.key = some (.reply chatId)) :
      ∀ x ∈ owe l.owed send.key (fun texts => texts ++ l.carried n) chatId,
        x <:+: restored t.memory send := by
    intro x hx
    rw [owe_self hkey] at hx
    rcases List.mem_append.mp hx with hx | hx
    · exact restored_hydrated hkey hfinds (h.saved chatId x hx)
    · exact (hcarried x hx).trans (restored_submitted _)
  have hsaved : Saved (keepDraft t.memory send.key (restored t.memory send) writes)
      (owe l.owed send.key fun texts => texts ++ l.carried n) := by
    apply saved_keep h.saved hspares
    · intro chatId hne
      exact owe_ne hne
    · intro chatId hkey x hx
      rw [List.take_of_length_le (hfits chatId hkey)]
      exact hnew chatId hkey x hx
  unfold restore
  dsimp only
  split
  · next howner =>
    refine ⟨hsaved, ?_, ?_, h.carries⟩
    · intro j hj
      by_cases hjo : j = send.owner
      · rw [hjo]
        simp only [Tab.setController, Function.update_self]
        intro chatId hkey x hx
        exact ⟨hnew chatId (howner.symm.trans hkey) x hx, fun hlocal => by cases hlocal⟩
      · simp only [Tab.setController, Function.update_of_ne hjo]
        intro chatId hkey x hx
        by_cases hsame : send.key = some (.reply chatId)
        · exact absurd (hreturns j chatId hj hsame (hkey.trans hsame.symm)) hjo
        · rw [owe_ne hsame] at hx
          exact h.shows j hj chatId hkey x hx
    · intro j hj
      by_cases hjo : j = send.owner
      · rw [hjo]
        simp only [Tab.setController, Function.update_self]
        rw [hjo] at hj
        exact h.followed send.owner hj
      · simp only [Tab.setController, Function.update_of_ne hjo]
        exact h.followed j hj
  · next howner =>
    refine ⟨hsaved, ?_, h.followed, h.carries⟩
    intro j hj chatId hkey x hx
    by_cases hsame : send.key = some (.reply chatId)
    · have hjo := hreturns j chatId hj hsame (hkey.trans hsame.symm)
      exact absurd (hjo ▸ hkey.trans hsame.symm) howner
    · have hx' : x ∈ owe l.owed send.key (fun texts => texts ++ l.carried n) chatId := hx
      rw [owe_ne hsame] at hx'
      exact h.shows j hj chatId hkey x hx'

theorem delivered_sub :
    ∀ chatId, ∀ x ∈ (delivered l send).owed chatId, x ∈ l.owed chatId := owe_filter_sub

theorem delivered_inv (h : Inv t l) : Inv t (delivered l send) :=
  ⟨h.saved.mono delivered_sub, fun i hi => (h.shows i hi).mono delivered_sub, h.followed, h.carries⟩

/-- Nothing is owed to a chat any more when all of it was in the delivered text. -/
theorem delivered_all {chatId : String} (hkey : send.key = some (.reply chatId))
    (hall : ∀ x ∈ l.owed chatId, x <:+: send.submitted) : (delivered l send).owed chatId = [] := by
  unfold delivered
  dsimp only
  rw [owe_self hkey, List.filter_eq_nil_iff]
  intro x hx hkept
  exact of_decide_eq_true hkept (hall x hx)

/-- Signals of the composer that no draft depends on. -/
theorem setController_inv {i : ℕ} {c : Controller} (h : Inv t l)
    (hkey : c.draftStorageKey = (t.controllers i).draftStorageKey)
    (hhydrated : c.hydratedKey = (t.controllers i).hydratedKey)
    (hdraft : c.draft = (t.controllers i).draft)
    (hlocal : c.hasLocalDraft = (t.controllers i).hasLocalDraft) : Inv (t.setController i c) l := by
  refine ⟨h.saved, ?_, ?_, h.carries⟩
  · intro j hj
    by_cases hji : j = i
    · rw [hji] at hj ⊢
      simp only [Tab.setController, Function.update_self]
      intro chatId hreply x hx
      rw [hdraft, hlocal]
      exact h.shows i hj chatId (hkey.symm.trans hreply) x hx
    · simp only [Tab.setController, Function.update_of_ne hji]
      exact h.shows j hj
  · intro j hj
    by_cases hji : j = i
    · rw [hji] at hj ⊢
      simp only [Tab.setController, Function.update_self]
      rw [hkey, hhydrated]
      exact h.followed i hj
    · simp only [Tab.setController, Function.update_of_ne hji]
      exact h.followed j hj

/-- The memory may forget a delivered text with all that was owed. -/
theorem delivered_saved (h : Inv t l)
    (hall : ∀ chatId, send.key = some (.reply chatId) → ∀ x ∈ l.owed chatId,
      x <:+: send.submitted) :
    Saved (clearSubmitted t.memory send.key send.submitted writes) (delivered l send).owed := by
  apply saved_clear h.saved
  intro chatId hkey
  rw [List.filter_eq_nil_iff]
  intro x hx hkept
  exact of_decide_eq_true hkept (hall chatId hkey x hx)

variable {generation revision : ℕ} {sameImages : Bool}

/-- All that is owed to the chat of a delivered held send is in what was sent. -/
theorem held_inside (h : Inv t l) (hundisturbed : Undisturbed t send generation)
    (hcurrent : (t.controllers send.owner).current send generation = true)
    (hdraft : (t.controllers send.owner).draft = send.submitted) :
    ∀ chatId, send.key = some (.reply chatId) → ∀ x ∈ l.owed chatId, x <:+: send.submitted := by
  intro chatId hkey x hx
  by_cases howner : t.mounted = some send.owner
  · have hcurrent' := hcurrent
    unfold Controller.current at hcurrent'
    rw [Bool.and_eq_true, decide_eq_true_iff, decide_eq_true_iff] at hcurrent'
    rw [← hdraft]
    exact (h.shows send.owner howner chatId (hcurrent'.2.trans hkey) x hx).1
  · rw [← hundisturbed chatId hkey howner hcurrent hdraft]
    exact h.saved chatId x hx

theorem held_ok_inv (h : Inv t l) (hundisturbed : Undisturbed t send generation) :
    Inv (settleHeld t send generation revision .ok sameImages writes) (delivered l send) := by
  unfold settleHeld
  dsimp only
  split
  · next hcurrent =>
    split
    · next hdraft =>
      have hall := held_inside h hundisturbed hcurrent hdraft
      have hkeys : (t.controllers send.owner).draftStorageKey = send.key := by
        unfold Controller.current at hcurrent
        rw [Bool.and_eq_true, decide_eq_true_iff, decide_eq_true_iff] at hcurrent
        exact hcurrent.2
      refine ⟨delivered_saved h hall, ?_, ?_, h.carries⟩
      · intro j hj
        by_cases hjo : j = send.owner
        · rw [hjo]
          simp only [Tab.setController, Function.update_self]
          intro chatId hkey x hx
          rw [delivered_all (hkeys.symm.trans hkey) (hall chatId (hkeys.symm.trans hkey))] at hx
          cases hx
        · simp only [Tab.setController, Function.update_of_ne hjo]
          exact (h.shows j hj).mono delivered_sub
      · intro j hj
        by_cases hjo : j = send.owner
        · rw [hjo] at hj ⊢
          simp only [Tab.setController, Function.update_self]
          exact h.followed send.owner hj
        · simp only [Tab.setController, Function.update_of_ne hjo]
          exact h.followed j hj
    · exact setController_inv (delivered_inv h) rfl rfl rfl rfl
  · split
    · next hsame =>
      obtain ⟨-, -, hread, -, -⟩ := hsame
      refine ⟨delivered_saved h ?_, fun j hj => (h.shows j hj).mono delivered_sub, h.followed,
        h.carries⟩
      intro chatId hkey x hx
      rw [hkey] at hread
      rw [← hydratedDraft_some hread]
      exact h.saved chatId x hx
    · exact delivered_inv h

/-- A held send that fails leaves its draft where it is. -/
theorem held_failed_inv {outcome : Outcome} (h : Inv t l) (hfailed : outcome ≠ .ok) :
    Inv (settleHeld t send generation revision outcome sameImages writes) l := by
  unfold settleHeld
  dsimp only
  split
  · cases outcome with
    | ok => exact absurd rfl hfailed
    | refused fallback => exact setController_inv h rfl rfl rfl rfl
    | lost => exact setController_inv h rfl rfl rfl rfl
  · split
    · next hsame => exact absurd hsame.1 hfailed
    · exact h

/-- A failed send puts its texts back; a delivered one owes nothing more. -/
theorem settleSend_inv {n : ℕ} {outcome : Outcome} (h : Inv t l)
    (hcarried : ∀ x ∈ l.carried n, x <:+: send.submitted)
    (hallowed : SettleAllowed t send outcome) :
    Inv (settleSend t send outcome sameImages writes) (noteSettle l send n outcome) := by
  unfold SettleAllowed at hallowed
  unfold settleSend
  cases hwaiting : send.waiting with
  | held generation revision =>
    rw [hwaiting] at hallowed
    have hnote {outcome' : Outcome} (hfailed : outcome' ≠ .ok) :
        noteSettle l send n outcome' = l := by
      cases outcome' with
      | ok => exact absurd rfl hfailed
      | refused fallback => simp [noteSettle, hwaiting]
      | lost => simp [noteSettle, hwaiting]
    cases outcome with
    | ok => exact held_ok_inv h hallowed
    | refused fallback =>
      rw [hnote (by simp)]
      exact held_failed_inv h (by simp)
    | lost =>
      rw [hnote (by simp)]
      exact held_failed_inv h (by simp)
  | freed =>
    rw [hwaiting] at hallowed
    cases outcome with
    | ok => exact delivered_inv h
    | refused fallback =>
      obtain ⟨hfits, hspares, hfinds, hreturns⟩ := hallowed
      simp only [noteSettle, hwaiting, if_true]
      exact restore_inv h hcarried hfits hspares hfinds hreturns
    | lost =>
      obtain ⟨hfits, hspares, hfinds, hreturns⟩ := hallowed
      simp only [noteSettle, hwaiting, if_true]
      exact restore_inv h hcarried hfits hspares hfinds hreturns

/-- A result comes for a send that waits for it, or for none. -/
theorem settle_inv {n : ℕ} {outcome : Outcome} (h : Inv t l)
    (hallowed : ∀ send, t.sends[n]? = some send → send.settled = false →
      SettleAllowed t send outcome) :
    Inv (settle t n outcome sameImages writes)
      (note t l (.settle n outcome sameImages writes)) := by
  cases hsend : t.sends[n]? with
  | none => simpa only [settle, note, hsend] using h
  | some send =>
    simp only [settle, note, hsend]
    split
    · exact h
    · next hopen =>
      have hlt : n < t.sends.length := (List.getElem?_eq_some_iff.mp hsend).1
      have hmarked : Inv { t with sends := t.sends.set n { send with settled := true } } l := by
        refine ⟨h.saved, h.shows, h.followed, ?_⟩
        intro k send' hsend' x hx
        have hset : (t.sends.set n { send with settled := true })[k]? = some send' := hsend'
        by_cases hk : n = k
        · rw [← hk, List.getElem?_set_self hlt] at hset
          cases hset
          exact h.carries n send hsend x (hk ▸ hx)
        · rw [List.getElem?_set_ne hk] at hset
          exact h.carries k send' hset x hx
      exact settleSend_inv hmarked (h.carries n send hsend)
        (hallowed send hsend (Bool.not_eq_true _ ▸ hopen))

end Results

section Runs

theorem watch_inv (w : Watched) (e : Happening) (hallowed : Allowed w e)
    (h : Inv w.tab w.ledger) : Inv (watch w e).1.tab (watch w e).1.ledger := by
  cases e with
  | edit value writes =>
    cases hi : w.tab.mounted with
    | none => simpa only [watch, happen, note, hi, Option.elim_none] using h
    | some i =>
      simp only [watch, happen, note, hi, Option.elim_some]
      obtain ⟨hfits, hspares⟩ := hallowed i hi
      exact edit_inv h hi hfits hspares
  | submit useFallback writes =>
    cases hi : w.tab.mounted with
    | none => simpa only [watch, happen, note, hi, Option.elim_none] using h
    | some i =>
      simp only [watch, happen, note, hi, Option.elim_some]
      exact submit_inv h hi
  | settle n outcome sameImages writes => exact settle_inv h hallowed
  | props next intentFirst writes =>
    cases hi : w.tab.mounted with
    | none => simpa only [watch, happen, note, hi, Option.elim_none] using h
    | some i =>
      simp only [watch, happen, note, hi, Option.elim_some]
      exact syncProps_inv h hi (hallowed i hi)
  | unmount =>
    refine ⟨h.saved, ?_, ?_, h.carries⟩
    · intro i hi
      cases hi
    · intro i hi
      cases hi
  | mount props writes => exact mount_inv h hallowed

def start (storageBlocked : Bool) (localStorage : DraftKey → Option DraftText) : Watched where
  tab := opened storageBlocked localStorage
  ledger := ⟨fun _ => [], fun _ => []⟩

theorem start_inv (storageBlocked : Bool) (localStorage : DraftKey → Option DraftText) :
    Inv (start storageBlocked localStorage).tab (start storageBlocked localStorage).ledger := by
  refine ⟨?_, ?_, ?_, ?_⟩
  · intro chatId x hx
    cases hx
  · intro i hi
    cases hi
  · intro i hi
    cases hi
  · intro n send hsend x hx
    cases hx

/-- Failed replies never lose text, in every run whose steps cut no draft and forget no only
copy. -/
theorem failed_replies_kept (storageBlocked : Bool) (localStorage : DraftKey → Option DraftText)
    (run : List Happening)
    (hrun : Runs.Meets watch Allowed (start storageBlocked localStorage) run) :
    Kept (Runs.final watch (start storageBlocked localStorage) run).tab
      (Runs.final watch (start storageBlocked localStorage) run).ledger.owed := by
  have hinv := Runs.meets_invariant watch Allowed (fun w => Inv w.tab w.ledger) watch_inv
    (start storageBlocked localStorage) (start_inv storageBlocked localStorage) run hrun
  exact hinv.kept

/-- A tab with room for a draft forgets none. -/
theorem spares_of_room {m : Memory} {key : Option DraftKey} {value : DraftText}
    (h : m.drafts.keys.length < draftCapacity) : Spares m key value := by
  intro k chatId draft _ hout
  unfold RecentMap.pushedOut at hout
  have hlength : (m.drafts.insert k (value.take draftLimit)).keys.length ≤ draftCapacity := by
    rw [AList.keys_insert, List.length_cons]
    have := List.length_erase_le (a := k) (l := m.drafts.keys)
    omega
  rw [if_neg (by omega)] at hout
  cases hout

def chatProps : Props where
  mode := .reply
  chatId := some "chat"

/-- A reply, a newer draft, and the failure of the reply. -/
def failingRun (reply newer : DraftText) : List Happening :=
  [.mount chatProps true, .edit reply true, .submit false true, .edit newer true,
    .settle 0 .lost true true]

theorem failed_replies_kept_short :
    Kept (Runs.final watch (start false fun _ => none) (failingRun [97] [98])).tab
      (Runs.final watch (start false fun _ => none) (failingRun [97] [98])).ledger.owed := by
  refine failed_replies_kept false (fun _ => none) (failingRun [97] [98]) ?_
  refine ⟨?_, ?_, trivial, ?_, ?_, trivial⟩
  · refine ⟨fun h => (by cases h), ?_, ?_⟩
    · intro key cached _ _ _ _
      exact spares_of_room (by decide)
    · intro _
      exact spares_of_room (by decide)
  · intro i hi
    cases hi
    exact ⟨fun _ _ => by decide, spares_of_room (by decide)⟩
  · intro i hi
    cases hi
    exact ⟨fun _ _ => by decide, spares_of_room (by decide)⟩
  · intro send hsend _
    cases hsend
    refine ⟨fun _ _ => by decide, spares_of_room (by decide), ?_, ?_⟩
    · intro chatId hkey hlookup
      cases hkey
      cases hlookup
    · intro i chatId hi _ _
      cases hi
      rfl

/-- What the tab has of both drafts after the failure. -/
theorem failing_hydrated (rest rest' : DraftText) :
    hydratedDraft (Runs.final watch (start true fun _ => none)
        (failingRun (97 :: rest) (98 :: rest'))).tab.memory (.reply "chat") =
      (97 :: rest ++ separator ++ (98 :: rest').take draftLimit).take draftLimit :=
  rfl

theorem failing_owed (rest rest' : DraftText) :
    (Runs.final watch (start true fun _ => none)
        (failingRun (97 :: rest) (98 :: rest'))).ledger.owed "chat" =
      [98 :: rest', 97 :: rest, 97 :: rest] :=
  rfl

theorem count_cut (a b : ℕ) :
    List.count 98 ((List.replicate a 97 ++ separator ++
      (List.replicate b 98).take draftLimit).take draftLimit) ≤ draftLimit - a := by
  rw [List.append_assoc, List.take_append, List.length_replicate, List.count_append]
  have hfirst : List.count (98 : UInt16) ((List.replicate a 97).take draftLimit) = 0 := by
    rw [List.take_replicate, List.count_replicate]
    rfl
  rw [hfirst, Nat.zero_add]
  refine List.count_le_length.trans ?_
  rw [List.length_take]
  exact Nat.min_le_left _ _

/-- Two drafts that fit each, but not together. -/
theorem long_draft_cut :
    ¬Kept (Runs.final watch (start true fun _ => none)
        (failingRun (97 :: List.replicate 19999 97) (98 :: List.replicate 19999 98))).tab
      (Runs.final watch (start true fun _ => none)
        (failingRun (97 :: List.replicate 19999 97)
          (98 :: List.replicate 19999 98))).ledger.owed := by
  intro hkept
  have howed : 98 :: List.replicate 19999 98 ∈ (Runs.final watch (start true fun _ => none)
      (failingRun (97 :: List.replicate 19999 97) (98 :: List.replicate 19999 98))).ledger.owed
        "chat" := by
    rw [failing_owed]
    exact List.mem_cons_self
  have hin := hkept.hydrated "chat" _ howed
  rw [failing_hydrated] at hin
  have hcount := hin.sublist.count_le 98
  rw [← List.replicate_succ, ← List.replicate_succ, List.count_replicate_self] at hcount
  have hcut := hcount.trans (count_cut (19999 + 1) (19999 + 1))
  unfold draftLimit at hcut
  omega

end Runs

end Prompta.DraftsKept
