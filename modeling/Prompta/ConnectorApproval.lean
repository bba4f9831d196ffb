import Mathlib.Data.Rat.Defs
import Mathlib.Algebra.Order.Ring.Rat
import Prompta.Texts

/-!
The script that approves a connector on a page. It looks for a persistent grant, then for a
dialog with a persistent checkbox, then for a one-time grant, and clicks one of them. The
persistent search tests a group before it tests whether the group is a whole message.
-/
namespace Prompta.ConnectorApproval

open Texts

/-- What `\s` matches in the script's language. -/
def isWhitespace (c : Char) : Bool :=
  let n := c.toNat
  (9 ≤ n && n ≤ 13) || n = 0x20 || n = 0xa0 || n = 0x1680 || (0x2000 ≤ n && n ≤ 0x200a) ||
    n = 0x2028 || n = 0x2029 || n = 0x202f || n = 0x205f || n = 0x3000 || n = 0xfeff

/-- `normalize`: the words of a text in lower case, with single blanks between them. -/
def normalize (t : Text) : Text :=
  (List.intercalate [' '] ((t.splitOnP isWhitespace).filter fun word => decide (word ≠ []))).map
    Char.toLower

def trim (t : Text) : Text := (t.dropWhile isWhitespace).rdropWhile isWhitespace

/-- `a || b || c` on texts. -/
def firstText (texts : List Text) : Text := (texts.find? fun t => decide (t ≠ [])).getD []

/-- What the script reads of an element. `text` leaves out the hints, `labelledText` is that
of the elements it is labelled by, `fieldLabel` that of its first label. -/
structure Element where
  tag : String
  role : String := ""
  inputType : String := ""
  messageAuthor : Bool := false
  visible : Bool := true
  disabled : Bool := false
  ariaDisabled : String := ""
  ariaLabel : Text := []
  labelledText : Text := []
  text : Text := []
  fieldLabel : Text := []
  parentText : Text := []
  checked : Bool := false
  ariaChecked : String := ""
  deriving DecidableEq

namespace Element

variable (el : Element)

def label : Text := normalize (firstText [el.ariaLabel, trim el.labelledText, el.text])

def boxLabel : Text := normalize (firstText [el.ariaLabel, el.fieldLabel, el.parentText])

def enabled : Bool := !el.disabled && decide (el.ariaDisabled ≠ "true")

def isControl : Bool := decide (el.tag = "button") || decide (el.role = "button")

def isDialog : Bool := decide (el.role = "dialog") || decide (el.role = "alertdialog")

def isCheckbox : Bool :=
  (decide (el.tag = "input") && decide (el.inputType = "checkbox")) || decide (el.role = "checkbox")

def isChecked : Bool := el.checked || decide (el.ariaChecked = "true")

/-- `main, article, [data-message-author-role]` -/
def isMessage : Bool := decide (el.tag = "main") || decide (el.tag = "article") || el.messageAuthor

/-- A visible element with one of some labels. -/
def shows (labels : List String) : Bool :=
  el.visible && decide (el.label ∈ labels.map String.toList)

def isAlways : Bool := el.shows ["always allow"]

end Element

/-- A tree of elements, each with its identity. -/
inductive Tree (ι : Type) where
  | node (id : ι) (element : Element) (children : List (Tree ι))

/-- An element of the tree with its ancestors, from the parent up. -/
structure Place (ι : Type) where
  id : ι
  element : Element
  ancestors : List (ι × Element)
  deriving DecidableEq

section Tree

variable {ι : Type}

mutual

def places (above : List (ι × Element)) : Tree ι → List (Place ι)
  | .node id element children => ⟨id, element, above⟩ :: placesOf ((id, element) :: above) children

def placesOf (above : List (ι × Element)) : List (Tree ι) → List (Place ι)
  | [] => []
  | tree :: rest => places above tree ++ placesOf above rest

end

end Tree

structure Document (ι : Type) where
  root : Tree ι
  body : Option ι

/-- What is stored of the attempts at a button. -/
structure Attempt where
  attempts : ℕ
  time : ℚ
  checkboxPending : Bool
  deriving DecidableEq

abbrev Attempts (ι : Type) := ι → Option Attempt

section Search

variable {ι : Type} [DecidableEq ι] (doc : Document ι)

def elements : List (Place ι) := places [] doc.root

/-- `controls(document)` -/
def allControls : List (Place ι) := (elements doc).filter fun p => p.element.isControl

def below (group : ι) : List (Place ι) :=
  (elements doc).filter fun p => decide (group ∈ p.ancestors.map Prod.fst)

/-- `controls(group)` -/
def controls (group : ι) : List (Place ι) := (below doc group).filter fun p => p.element.isControl

def anyControl (group : ι) (labels : List String) : Bool :=
  (controls doc group).any fun p => p.element.shows labels

/-- The groups of a button: its ancestors below the body. -/
def groups (button : Place ι) : List (ι × Element) :=
  button.ancestors.takeWhile fun group => decide (some group.1 ≠ doc.body)

/-- Climb to the first group that passes the test. A whole message ends the climb after its test. -/
def searchThenStop (test : ι × Element → Bool) : List (ι × Element) → Option (ι × Element)
  | [] => none
  | group :: rest =>
    if test group then some group
    else if group.2.isMessage then none
    else searchThenStop test rest

/-- Climb to the first group that passes the test. A whole message ends the climb before its
test. -/
def stopThenSearch (test : ι × Element → Bool) : List (ι × Element) → Option (ι × Element)
  | [] => none
  | group :: rest =>
    if group.2.isMessage then none
    else if test group then some group
    else stopThenSearch test rest

/-- The smallest permission group of a persistent grant. -/
def persistentGroup (button : Place ι) : Option (ι × Element) :=
  searchThenStop (fun group => group.2.isDialog ||
    anyControl doc group.1 ["allow once", "deny", "decline"]) (groups doc button)

def hasOnceFallback (button : Place ι) : Bool :=
  (stopThenSearch (fun group => anyControl doc group.1 ["allow once"] &&
    (group.2.isDialog || anyControl doc group.1 ["deny", "decline"])) (groups doc button)).isSome

def attemptsAt (state : Attempts ι) (p : Place ι) : ℕ := ((state p.id).map Attempt.attempts).getD 0

def offersPersistent (state : Attempts ι) (button : Place ι) : Bool :=
  button.element.isAlways && button.element.enabled &&
    !(decide (3 ≤ attemptsAt state button) && hasOnceFallback doc button) &&
    (persistentGroup doc button).isSome

/-- The visible `always allow` checkbox of a dialog. -/
def persistentBox (dialog : ι) : Option (Place ι) :=
  (below doc dialog).find? fun p => p.element.isCheckbox && p.element.visible &&
    decide (p.element.boxLabel = "always allow".toList)

/-- The `allow` button and the persistent checkbox of a visible dialog. -/
def dialogGrant (dialog : Place ι) : Option (Place ι × Place ι) :=
  if dialog.element.isDialog && dialog.element.visible then
    match persistentBox doc dialog.id, (controls doc dialog.id).find? fun p =>
      p.element.shows ["allow"] with
    | some box, some allow => some (allow, box)
    | _, _ => none
  else none

/-- The smallest permission group of a one-time grant. -/
def onceGroup (button : Place ι) : Option (ι × Element) :=
  stopThenSearch (fun group => group.2.isDialog || anyControl doc group.1 ["deny", "decline"])
    (groups doc button)

/-- A button that the last loop returns for: no persistent grant is left in its group. -/
def offersOnce (state : Attempts ι) (button : Place ι) : Bool :=
  button.element.shows ["allow once"] && button.element.enabled &&
    match onceGroup doc button with
    | some group => !(controls doc group.1).any fun p =>
        p.element.isAlways && p.element.enabled && decide (attemptsAt state p < 3)
    | none => false

inductive Choice (ι : Type)
  | persistent (button : Place ι)
  | checkbox (allow box : Place ι)
  | once (button : Place ι)
  deriving DecidableEq

def choose (state : Attempts ι) : Option (Choice ι) :=
  match (allControls doc).find? (offersPersistent doc state) with
  | some button => some (.persistent button)
  | none =>
    match (elements doc).findSome? (dialogGrant doc) with
    | some (allow, box) => some (.checkbox allow box)
    | none => ((allControls doc).find? (offersOnce doc state)).map .once

end Search

/-- What the run meets: the time in milliseconds, what a checkbox reads after its click, and
whether the button disappears after its own. -/
structure Surroundings where
  now : ℚ
  checkedAfter : Bool
  disappears : Bool

inductive Approval
  | refused
  | pending
  | stuck
  | granted
  deriving DecidableEq, Repr

/-- A click, with what the checkboxes read at that moment. -/
structure Click (ι : Type) where
  target : Place ι
  checked : Place ι → Bool

structure Outcome (ι : Type) where
  approval : Approval
  clicks : List (Click ι) := []
  state : Attempts ι

def retryAfter (attempts : ℕ) : ℚ :=
  match attempts with
  | 0 => 1500
  | n + 1 => min 30000 (3000 * 2 ^ min n 4)

/-- The button was tried too short a time ago. A checkbox that was left to be checked, and now
is, does not wait. -/
def isWaiting (previous : Option Attempt) (boxChecked : Bool) (now : ℚ) : Bool :=
  match previous with
  | none => false
  | some p => !(p.checkboxPending && boxChecked) && decide (now - p.time < retryAfter p.attempts)

section Approve

variable {ι : Type} [DecidableEq ι]

def record (state : Attempts ι) (id : ι) (attempt : Attempt) : Attempts ι :=
  Function.update state id (some attempt)

def approve (state : Attempts ι) (env : Surroundings) (button : Place ι)
    (checkbox : Option (Place ι)) :
    Outcome ι :=
  if !button.element.enabled || checkbox.any fun box => !box.element.enabled then
    { approval := .refused, state }
  else
    let boxChecked := checkbox.any fun box => box.element.isChecked
    if isWaiting (state button.id) boxChecked env.now then { approval := .pending, state }
    else
      let next : Attempt := ⟨attemptsAt state button + 1, env.now, false⟩
      let approval : Approval := if env.disappears then .granted else .stuck
      let before : Place ι → Bool := fun p => p.element.isChecked
      match checkbox with
      | some box =>
        if box.element.isChecked then
          { approval, clicks := [⟨button, before⟩], state := record state button.id next }
        else if env.checkedAfter then
          { approval
            clicks := [⟨box, before⟩, ⟨button, fun p => if p = box then true else before p⟩]
            state := record state button.id next }
        else
          { approval := .stuck, clicks := [⟨box, before⟩]
            state := record state button.id { next with checkboxPending := true } }
      | none => { approval, clicks := [⟨button, before⟩], state := record state button.id next }

def approveConnector (doc : Document ι) (state : Attempts ι) (env : Surroundings) : Outcome ι :=
  match choose doc state with
  | some (.persistent button) => approve state env button none
  | some (.checkbox allow box) => approve state env allow (some box)
  | some (.once button) => approve state env button none
  | none => { approval := .refused, state }

end Approve

section Permission

variable {ι : Type} [DecidableEq ι] (doc : Document ι)

/-- A dialog, or a group with another visible control that answers a permission. -/
def IsGroupOf (button : Place ι) (group : ι × Element) : Prop :=
  group.2.isDialog = true ∨ ∃ other ∈ controls doc group.1, other ≠ button ∧
    other.element.shows ["allow once", "deny", "decline"] = true

/-- A permission group lies strictly below the nearest whole message around the button. -/
def InGroup (button : Place ι) : Prop :=
  ∃ group ∈ button.ancestors.takeWhile fun group => !group.2.isMessage, IsGroupOf doc button group

/-- The `always allow` checkbox of a visible dialog. -/
def IsPersistentBox (dialog box : Place ι) : Prop :=
  dialog ∈ elements doc ∧ dialog.element.isDialog = true ∧ dialog.element.visible = true ∧
    box ∈ below doc dialog.id ∧ box.element.isCheckbox = true ∧ box.element.visible = true ∧
      box.element.boxLabel = "always allow".toList

/-- What a click may be on. -/
structure Permitted (click : Click ι) : Prop where
  visible : click.target.element.visible = true
  enabled : click.target.element.enabled = true
  grant : (click.target.element.shows ["always allow", "allow once"] = true ∧
    InGroup doc click.target) ∨
    ∃ dialog box, IsPersistentBox doc dialog box ∧ (click.target = box ∨
      (click.target ∈ controls doc dialog.id ∧ click.target.element.shows ["allow"] = true ∧
        click.checked box = true))

/-- A persistent grant whose smallest permission group is a whole message is due. -/
def GrantsAcross (state : Attempts ι) (env : Surroundings) : Prop :=
  ∃ button group, choose doc state = some (.persistent button) ∧
    isWaiting (state button.id) false env.now = false ∧ persistentGroup doc button = some group ∧
      group.2.isMessage = true ∧ ¬ ∃ dialog, IsPersistentBox doc dialog button

end Permission

section Climb

variable {ι : Type} {test : ι × Element → Bool} {chain : List (ι × Element)} {group : ι × Element}

theorem searchThenStop_some (h : searchThenStop test chain = some group) :
    test group = true ∧ ∃ inner outer, chain = inner ++ group :: outer ∧
      ∀ g ∈ inner, test g = false ∧ g.2.isMessage = false := by
  induction chain with
  | nil => exact nomatch h
  | cons first rest ih =>
    rw [searchThenStop] at h
    split at h
    · rename_i htest
      obtain rfl := Option.some.inj h
      exact ⟨htest, [], rest, rfl, fun _ hmem => nomatch hmem⟩
    · rename_i htest
      split at h
      · exact nomatch h
      · rename_i hmessage
        obtain ⟨hgroup, inner, outer, hchain, hinner⟩ := ih h
        refine ⟨hgroup, first :: inner, outer, by rw [hchain]; rfl, ?_⟩
        intro g hg
        rcases List.mem_cons.mp hg with rfl | hg
        · exact ⟨Bool.not_eq_true _ ▸ htest, Bool.not_eq_true _ ▸ hmessage⟩
        · exact hinner g hg

theorem stopThenSearch_some (h : stopThenSearch test chain = some group) :
    test group = true ∧ group ∈ chain.takeWhile fun g => !g.2.isMessage := by
  induction chain with
  | nil => exact nomatch h
  | cons first rest ih =>
    rw [stopThenSearch] at h
    split at h
    · exact nomatch h
    · rename_i hmessage
      rw [List.takeWhile_cons_of_pos (by simpa using hmessage)]
      split at h
      · rename_i htest
        obtain rfl := Option.some.inj h
        exact ⟨htest, List.mem_cons_self⟩
      · obtain ⟨hgroup, hmem⟩ := ih h
        exact ⟨hgroup, List.mem_cons_of_mem first hmem⟩

end Climb

section Clicks

variable {ι : Type} [DecidableEq ι] {doc : Document ι} {button : Place ι}

theorem groups_first (doc : Document ι) (button : Place ι) :
    groups doc button <+: button.ancestors :=
  List.takeWhile_prefix _

theorem shows_mono {el : Element} {first second : List String} (h : el.shows first = true)
    (hsub : ∀ t ∈ first.map String.toList, t ∈ second.map String.toList) :
    el.shows second = true := by
  rw [Element.shows, Bool.and_eq_true, decide_eq_true_eq] at h ⊢
  exact ⟨h.1, hsub _ h.2⟩

theorem shows_disjoint {el : Element} {first : List String} (second : List String)
    (h : el.shows first = true)
    (hdisjoint : ∀ t ∈ first.map String.toList, t ∉ second.map String.toList) :
    el.shows second = false := by
  rw [Element.shows, Bool.and_eq_true, decide_eq_true_eq] at h
  rw [Element.shows, decide_eq_false (hdisjoint _ h.2), Bool.and_false]

/-- A group with a control of another label is one for the button. -/
theorem isGroupOf_anyControl {group : ι × Element} {own labels : List String}
    (hown : button.element.shows own = true)
    (hdisjoint : ∀ t ∈ own.map String.toList, t ∉ labels.map String.toList)
    (hsub : ∀ t ∈ labels.map String.toList, t ∈ ["allow once", "deny", "decline"].map String.toList)
    (h : anyControl doc group.1 labels = true) : IsGroupOf doc button group := by
  obtain ⟨other, hother, hshows⟩ := List.any_eq_true.mp h
  refine Or.inr ⟨other, hother, ?_, shows_mono hshows hsub⟩
  rintro rfl
  rw [shows_disjoint labels hown hdisjoint] at hshows
  exact Bool.noConfusion hshows

/-- What a button needs for the first loop to return it. -/
theorem offersPersistent_iff {state : Attempts ι} (h : offersPersistent doc state button = true) :
    button.element.shows ["always allow"] = true ∧ button.element.enabled = true ∧
      ∃ group, persistentGroup doc button = some group := by
  simp only [offersPersistent, Bool.and_eq_true] at h
  exact ⟨h.1.1.1, h.1.1.2, Option.isSome_iff_exists.mp h.2⟩

/-- A persistent grant is in a permission group exactly where the smallest group is no whole
message. -/
theorem inGroup_persistent_iff {group : ι × Element}
    (hlabel : button.element.shows ["always allow"] = true)
    (hgroup : persistentGroup doc button = some group) :
    InGroup doc button ↔ group.2.isMessage = false := by
  obtain ⟨htest, inner, outer, hchain, hinner⟩ := searchThenStop_some hgroup
  obtain ⟨rest, hrest⟩ := groups_first doc button
  have hancestors : button.ancestors = inner ++ group :: (outer ++ rest) := by
    rw [← hrest, hchain, List.append_assoc]
    rfl
  have hall : ∀ g ∈ inner, (!g.2.isMessage) = true := fun g hg => by rw [(hinner g hg).2]; rfl
  unfold InGroup
  rw [hancestors, List.takeWhile_append_of_pos hall]
  constructor
  · rintro ⟨g, hg, hpermission⟩
    by_contra hmessage
    rw [Bool.not_eq_false] at hmessage
    rw [List.takeWhile_cons_of_neg (by rw [hmessage]; decide), List.append_nil] at hg
    have hfails := (hinner g hg).1
    rw [Bool.or_eq_false_iff] at hfails
    rcases hpermission with hdialog | ⟨other, hother, _, hshows⟩
    · rw [hfails.1] at hdialog
      exact Bool.noConfusion hdialog
    · have hany := List.any_eq_false.mp hfails.2 other hother
      exact hany hshows
  · intro hmessage
    refine ⟨group, ?_, ?_⟩
    · rw [List.takeWhile_cons_of_pos (by rw [hmessage]; rfl)]
      exact List.mem_append_right _ List.mem_cons_self
    · rcases Bool.or_eq_true_iff.mp htest with hdialog | hany
      · exact Or.inl hdialog
      · exact isGroupOf_anyControl hlabel (by decide) (fun t ht => ht) hany

theorem inGroup_once {state : Attempts ι} (h : offersOnce doc state button = true) :
    button.element.shows ["allow once"] = true ∧ button.element.enabled = true ∧
      InGroup doc button := by
  simp only [offersOnce, Bool.and_eq_true] at h
  obtain ⟨⟨hlabel, henabled⟩, hgroup⟩ := h
  refine ⟨hlabel, henabled, ?_⟩
  cases honce : onceGroup doc button with
  | none =>
    rw [honce] at hgroup
    exact Bool.noConfusion hgroup
  | some group =>
    obtain ⟨htest, hmem⟩ := stopThenSearch_some honce
    refine ⟨group, ?_, ?_⟩
    · obtain ⟨rest, hrest⟩ := groups_first doc button
      rw [← hrest, List.takeWhile_append]
      split
      · exact List.mem_append_left _ (List.takeWhile_prefix _ |>.subset hmem)
      · exact hmem
    · rcases Bool.or_eq_true_iff.mp htest with hdialog | hany
      · exact Or.inl hdialog
      · exact isGroupOf_anyControl hlabel (by decide) (by decide) hany

theorem find?_spec {α : Type*} {p : α → Bool} {l : List α} {a : α} (h : l.find? p = some a) :
    a ∈ l ∧ p a = true := ⟨List.mem_of_find?_eq_some h, List.find?_some h⟩

/-- The two controls of a dialog that grants for good. -/
theorem dialogGrant_some {dialog allow box : Place ι} (hdialog : dialog ∈ elements doc)
    (h : dialogGrant doc dialog = some (allow, box)) :
    IsPersistentBox doc dialog box ∧ allow ∈ controls doc dialog.id ∧
      allow.element.shows ["allow"] = true := by
  unfold dialogGrant at h
  split at h
  · rename_i hvisible
    rw [Bool.and_eq_true] at hvisible
    split at h
    · rename_i box' allow' hbox hallow
      obtain ⟨rfl, rfl⟩ := Prod.mk.inj (Option.some.inj h)
      obtain ⟨hbelow, hchecks⟩ := find?_spec hbox
      simp only [Bool.and_eq_true, decide_eq_true_eq] at hchecks
      obtain ⟨hcontrol, hshows⟩ := find?_spec hallow
      exact ⟨⟨hdialog, hvisible.1, hvisible.2, hbelow, hchecks.1.1, hchecks.1.2,
        hchecks.2⟩, hcontrol, hshows⟩
    · exact nomatch h
  · exact nomatch h

theorem choose_persistent {state : Attempts ι} (h : choose doc state = some (.persistent button)) :
    offersPersistent doc state button = true := by
  unfold choose at h
  split at h
  · rename_i found hfound
    cases h
    exact (find?_spec hfound).2
  · split at h
    · exact nomatch h
    · cases hthird : (allControls doc).find? (offersOnce doc state) with
      | none => rw [hthird] at h; exact nomatch h
      | some found => rw [hthird] at h; exact nomatch h

/-- A checkbox is chosen in a visible dialog only. -/
theorem choose_checkbox {state : Attempts ι} {allow box : Place ι}
    (h : choose doc state = some (.checkbox allow box)) :
    ∃ dialog, IsPersistentBox doc dialog box ∧ allow ∈ controls doc dialog.id ∧
      allow.element.shows ["allow"] = true := by
  unfold choose at h
  split at h
  · exact nomatch h
  · split at h
    · rename_i hfound
      cases h
      obtain ⟨dialog, hdialog, hgrant⟩ := List.exists_of_findSome?_eq_some hfound
      exact ⟨dialog, dialogGrant_some hdialog hgrant⟩
    · cases hthird : (allControls doc).find? (offersOnce doc state) with
      | none => rw [hthird] at h; exact nomatch h
      | some found => rw [hthird] at h; exact nomatch h

theorem choose_once {state : Attempts ι} (h : choose doc state = some (.once button)) :
    offersOnce doc state button = true := by
  unfold choose at h
  split at h
  · exact nomatch h
  · split at h
    · exact nomatch h
    · cases hthird : (allControls doc).find? (offersOnce doc state) with
      | none => rw [hthird] at h; exact nomatch h
      | some found =>
        rw [hthird] at h
        cases h
        exact (find?_spec hthird).2

/-- Without a checkbox the button is clicked where it is enabled and not waiting. -/
theorem mem_approve_button {state : Attempts ι} {env : Surroundings} {click : Click ι}
    (henabled : button.element.enabled = true) :
    click ∈ (approve state env button none).clicks ↔
      isWaiting (state button.id) false env.now = false ∧
        click = ⟨button, fun p => p.element.isChecked⟩ := by
  unfold approve
  rw [henabled]
  simp only [Bool.not_true, Option.any_none, Bool.or_self, if_neg Bool.false_ne_true]
  cases isWaiting (state button.id) false env.now <;> simp

/-- The clicks on a checkbox and its button. -/
theorem mem_approve_checkbox {state : Attempts ι} {env : Surroundings} {allow box : Place ι}
    {click : Click ι} (h : click ∈ (approve state env allow (some box)).clicks) :
    allow.element.enabled = true ∧ box.element.enabled = true ∧
      (click.target = box ∨ (click.target = allow ∧ click.checked box = true)) := by
  unfold approve at h
  split at h
  · exact absurd h List.not_mem_nil
  · rename_i henabled
    simp only [Option.any_some, Bool.or_eq_true, Bool.not_eq_true', not_or, Bool.not_eq_false]
      at henabled
    refine ⟨henabled.1, henabled.2, ?_⟩
    dsimp only at h
    split at h
    · exact absurd h List.not_mem_nil
    · split at h
      · rename_i hchecked
        obtain rfl := List.mem_singleton.mp h
        exact Or.inr ⟨rfl, hchecked⟩
      · split at h
        · rcases List.mem_cons.mp h with rfl | h
          · exact Or.inl rfl
          · obtain rfl := List.mem_singleton.mp h
            exact Or.inr ⟨rfl, if_pos rfl⟩
        · obtain rfl := List.mem_singleton.mp h
          exact Or.inl rfl

theorem visible_of_shows {el : Element} {labels : List String} (h : el.shows labels = true) :
    el.visible = true := by
  rw [Element.shows, Bool.and_eq_true] at h
  exact h.1

/-- A grant across a whole message is clicked and not permitted. -/
theorem grantsAcross_clicked {state : Attempts ι} {env : Surroundings}
    (h : GrantsAcross doc state env) :
    ∃ click ∈ (approveConnector doc state env).clicks, ¬ Permitted doc click := by
  obtain ⟨button, group, hchoice, hdue, hgroup, hmessage, hbox⟩ := h
  obtain ⟨hlabel, henabled, _⟩ := offersPersistent_iff (choose_persistent hchoice)
  have hrun : approveConnector doc state env = approve state env button none := by
    unfold approveConnector
    rw [hchoice]
  have hnotAllow : button.element.shows ["allow"] = false := shows_disjoint _ hlabel (by decide)
  rw [hrun]
  refine ⟨_, (mem_approve_button henabled).mpr ⟨hdue, rfl⟩, ?_⟩
  intro hpermitted
  rcases hpermitted.grant with ⟨_, hin⟩ | ⟨dialog, box, hdialog, htarget | ⟨_, hallow, _⟩⟩
  · rw [(inGroup_persistent_iff hlabel hgroup).mp hin] at hmessage
    exact Bool.noConfusion hmessage
  · obtain rfl : button = box := htarget
    exact hbox ⟨dialog, hdialog⟩
  · rw [hnotAllow] at hallow
    exact Bool.noConfusion hallow

end Clicks

/-- A run clicks on permitted controls only, unless a persistent grant that is due has a whole
message for its smallest permission group. -/
theorem clicks_permitted_iff {ι : Type} [DecidableEq ι] (doc : Document ι) (state : Attempts ι)
    (env : Surroundings) :
    (∀ click ∈ (approveConnector doc state env).clicks, Permitted doc click) ↔
      ¬ GrantsAcross doc state env := by
  constructor
  · intro h hacross
    obtain ⟨click, hclick, hforbidden⟩ := grantsAcross_clicked hacross
    exact hforbidden (h click hclick)
  · intro h click hclick
    unfold approveConnector at hclick
    cases hchoice : choose doc state with
    | none =>
      rw [hchoice] at hclick
      exact absurd hclick List.not_mem_nil
    | some choice =>
      rw [hchoice] at hclick
      cases choice with
      | persistent button =>
        obtain ⟨hlabel, henabled, group, hgroup⟩ := offersPersistent_iff (choose_persistent hchoice)
        obtain ⟨hdue, rfl⟩ := (mem_approve_button henabled).mp hclick
        refine ⟨visible_of_shows hlabel, henabled, ?_⟩
        by_cases hin : InGroup doc button
        · exact Or.inl ⟨shows_mono hlabel (by decide), hin⟩
        · right
          by_contra hbox
          apply h
          refine ⟨button, group, hchoice, hdue, hgroup, ?_, ?_⟩
          · rw [inGroup_persistent_iff hlabel hgroup, Bool.not_eq_false] at hin
            exact hin
          · rintro ⟨dialog, hdialog⟩
            exact hbox ⟨dialog, button, hdialog, Or.inl rfl⟩
      | checkbox allow box =>
        obtain ⟨dialog, hdialog, hcontrol, hshows⟩ := choose_checkbox hchoice
        obtain ⟨hallow, hbox, htarget | ⟨htarget, hchecked⟩⟩ := mem_approve_checkbox hclick
        · refine ⟨?_, by rw [htarget]; exact hbox, Or.inr ⟨dialog, box, hdialog, Or.inl htarget⟩⟩
          rw [htarget]
          exact hdialog.2.2.2.2.2.1
        · refine ⟨?_, by rw [htarget]; exact hallow, Or.inr ⟨dialog, box, hdialog, Or.inr ?_⟩⟩
          · rw [htarget]
            exact visible_of_shows hshows
          · rw [htarget]
            exact ⟨hcontrol, hshows, hchecked⟩
      | once button =>
        obtain ⟨hlabel, henabled, hin⟩ := inGroup_once (choose_once hchoice)
        obtain ⟨_, rfl⟩ := (mem_approve_button henabled).mp hclick
        exact ⟨visible_of_shows hlabel, henabled, Or.inl ⟨shows_mono hlabel (by decide), hin⟩⟩

def controlOf (label : String) : Element := { tag := "button", text := label.toList }

/-- One message with a lone button in a card of its own, and a denial elsewhere. -/
def twoCards : Document ℕ where
  root := .node 0 { tag := "html" }
    [.node 1 { tag := "body" }
      [.node 2 { tag := "article" }
        [.node 3 { tag := "div" } [.node 4 (controlOf "Always allow") []],
          .node 5 { tag := "div" } [.node 6 (controlOf "Deny") []]]]]
  body := some 1

def loneButton : Place ℕ where
  id := 4
  element := controlOf "Always allow"
  ancestors := [(3, { tag := "div" }), (2, { tag := "article" }), (1, { tag := "body" }),
    (0, { tag := "html" })]

/-- The denial of another card grants the lone button. -/
theorem grants_lone_button : ¬ ∀ click ∈
    (approveConnector twoCards (fun _ => none) ⟨0, false, false⟩).clicks,
    Permitted twoCards click := by
  have hacross : GrantsAcross twoCards (fun _ => none) ⟨0, false, false⟩ := by
    refine ⟨loneButton, (2, { tag := "article" }), by decide +kernel,
      rfl, by decide +kernel, rfl, ?_⟩
    rintro ⟨dialog, hdialog⟩
    exact absurd hdialog.2.2.2.2.1 (by decide)
  intro h
  obtain ⟨click, hclick, hforbidden⟩ := grantsAcross_clicked hacross
  exact hforbidden (h click hclick)

end Prompta.ConnectorApproval
