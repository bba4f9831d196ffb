import Prompta.Runs
import Prompta.Service

/-!
The tool calls that are saved over the snapshots of a run. A saved call survives a merge
where no other entry stands in its place and where the calls up to it, as the snapshot
refreshes them, fit the serialized size.
-/
namespace Prompta.ToolRetention

open Texts DisplayBlocks ToolCalls Runs

/-- The texts of a call that a merge is to keep. -/
def callTexts : List (ToolCall → Text) := [ToolCall.arguments, ToolCall.result, ToolCall.error]

/-- Every stream call that is read off the earlier list is read off the later one, with a text
where it had one. -/
def Retains (before after : List ToolCall) : Prop :=
  ∀ call ∈ deserializeToolCalls before, isDomCall call = false →
    ∃ kept ∈ deserializeToolCalls after,
      kept.id = call.id ∧ ∀ field ∈ callTexts, field call ≠ [] → field kept ≠ []

section Merge

variable (lib : Stdlib) (stored incoming : List ToolCall)

def streamCalls : List ToolCall :=
  (deserializeToolCalls stored ++ incoming).filter fun call => !isDomCall call

/-- The stored calls as the snapshot finds them: placeholders upgraded, one call for each
identifier. -/
def savedCalls : List ToolCall :=
  dedupe ((deserializeToolCalls stored).map (upgradeCall lib (streamCalls stored incoming)))

/-- The calls of the snapshot, without the placeholders of known stream calls. -/
def reportedCalls : List ToolCall :=
  incoming.filter fun call =>
    !(isDomCall call && (streamCalls stored incoming).any (sameActivity lib call))

def refreshedBy (reported : List ToolCall) (call : ToolCall) : ToolCall :=
  (reported.filter fun new => decide (new.id = call.id)).foldl refresh call

/-- The call that stands first under the identifier of a saved one has its texts, or the
snapshot has them; and the saved calls up to it, as they are refreshed, fit the size. -/
def Keeps : Prop :=
  incoming ≠ [] → ∀ call ∈ deserializeToolCalls stored, isDomCall call = false →
    ∃ earlier kept later, savedCalls lib stored incoming = earlier ++ kept :: later ∧
      kept.id = call.id ∧
      (∀ field ∈ callTexts, field call ≠ [] → field kept ≠ [] ∨
        ∃ new ∈ incoming, new.id = call.id ∧ field new ≠ []) ∧
      dumpsLength ((earlier ++ [kept]).map (refreshedBy (reportedCalls lib stored incoming))) ≤
        maxSerialized

def mergeStep (stored incoming : List ToolCall) : List ToolCall × Unit :=
  (mergeToolCalls lib stored incoming, ())

end Merge

section Ids

def ids (calls : List ToolCall) : List Text := calls.map ToolCall.id

theorem dedupe_snoc (calls : List ToolCall) (call : ToolCall) :
    dedupe (calls ++ [call]) =
      if call.id ∈ ids (dedupe calls) then dedupe calls else dedupe calls ++ [call] := by
  rw [dedupe, List.foldl_concat]
  rfl

theorem dedupe_nodup (calls : List ToolCall) : (ids (dedupe calls)).Nodup := by
  induction calls using List.reverseRecOn with
  | nil => exact List.nodup_nil
  | append_singleton calls call ih =>
    rw [dedupe_snoc]
    split
    · exact ih
    · rename_i hnew
      rw [ids, List.map_append, List.map_singleton, List.nodup_append]
      refine ⟨ih, List.nodup_singleton _, ?_⟩
      intro a ha b hb hab
      exact hnew (List.mem_singleton.mp hb ▸ hab ▸ ha)

theorem dedupe_length (calls : List ToolCall) : (dedupe calls).length ≤ calls.length := by
  induction calls using List.reverseRecOn with
  | nil => exact Nat.le_refl _
  | append_singleton calls call ih =>
    rw [dedupe_snoc, List.length_append]
    split
    · omega
    · rw [List.length_append]
      omega

theorem mem_ids_dedupe {calls : List ToolCall} {call : ToolCall} (h : call ∈ calls) :
    call.id ∈ ids (dedupe calls) := by
  induction calls using List.reverseRecOn with
  | nil => exact absurd h List.not_mem_nil
  | append_singleton calls last ih =>
    rw [dedupe_snoc]
    split
    · rename_i hlast
      rcases List.mem_append.mp h with hmem | hmem
      · exact ih hmem
      · rw [List.mem_singleton.mp hmem]
        exact hlast
    · rw [ids, List.map_append, List.mem_append]
      rcases List.mem_append.mp h with hmem | hmem
      · exact Or.inl (ih hmem)
      · exact Or.inr (List.mem_map_of_mem hmem)

theorem split_of_id {calls : List ToolCall} {id : Text} (h : id ∈ ids calls) :
    ∃ earlier kept later, calls = earlier ++ kept :: later ∧ kept.id = id := by
  obtain ⟨kept, hkept, hid⟩ := List.mem_map.mp h
  obtain ⟨earlier, later, hsplit⟩ := List.append_of_mem hkept
  exact ⟨earlier, kept, later, hsplit, hid⟩

/-- An identifier in the first part of a list takes that part up to its call. -/
theorem prefix_of_mem {first calls earlier later : List ToolCall} {call kept : ToolCall}
    (hfirst : first <+: calls) (hsplit : calls = earlier ++ call :: later)
    (hnodup : (ids calls).Nodup)
    (hkept : kept ∈ first) (hid : kept.id = call.id) :
    kept = call ∧ earlier ++ [call] <+: first := by
  have hcall : call ∈ calls := by
    rw [hsplit]
    exact List.mem_append_right _ List.mem_cons_self
  refine ⟨List.inj_on_of_nodup_map hnodup (hfirst.subset hkept) hcall hid, ?_⟩
  have hprefix : earlier ++ [call] <+: calls := ⟨later, by rw [hsplit, List.append_assoc]; rfl⟩
  rcases List.prefix_or_prefix_of_prefix hfirst hprefix with hshort | hlong
  · rcases List.prefix_concat_iff.mp hshort with heq | hearlier
    · rw [heq]
    · exfalso
      rw [hsplit, ids, List.map_append, List.nodup_append] at hnodup
      exact hnodup.2.2 _ (List.mem_map_of_mem (hearlier.subset hkept)) call.id
        (List.mem_map_of_mem List.mem_cons_self) hid
  · exact hlong

theorem refresh_id (old call : ToolCall) : (refresh old call).id = call.id := rfl

theorem refreshedBy_id (reported : List ToolCall) (call : ToolCall) :
    (refreshedBy reported call).id = call.id := by
  have hfold : ∀ news : List ToolCall, (∀ new ∈ news, new.id = call.id) →
      ∀ old : ToolCall, old.id = call.id → (news.foldl refresh old).id = call.id := by
    intro news
    induction news with
    | nil => exact fun _ old hold => hold
    | cons new rest ih =>
      intro hnews old _
      exact ih (fun n hn => hnews n (List.mem_cons_of_mem new hn)) _ (hnews new List.mem_cons_self)
  apply hfold _ _ call rfl
  intro new hnew
  exact of_decide_eq_true (List.mem_filter.mp hnew).2

theorem refreshedBy_cons_same {new call : ToolCall} (h : new.id = call.id) (rest : List ToolCall) :
    refreshedBy (new :: rest) call = refreshedBy rest (refresh call new) := by
  rw [refreshedBy, List.filter_cons_of_pos (by simpa using h), List.foldl_cons, refreshedBy,
    refresh_id, h]

theorem refreshedBy_cons_other {new call : ToolCall} (h : new.id ≠ call.id) (rest : List ToolCall) :
    refreshedBy (new :: rest) call = refreshedBy rest call := by
  rw [refreshedBy, List.filter_cons_of_neg (by simpa using h), refreshedBy]

end Ids

section Fold

/-- A call of the snapshot refreshes the one of its identifier, or is added where there is room. -/
theorem mergeCall_cases (merged : List ToolCall) (call : ToolCall) (hnodup : (ids merged).Nodup) :
    (call.id ∈ ids merged ∧ mergeCall merged call =
        merged.map fun old => if old.id = call.id then refresh old call else old) ∨
      (call.id ∉ ids merged ∧ mergeCall merged call =
        if merged.length < maxCalls then merged ++ [call] else merged) := by
  unfold mergeCall
  cases hfound : merged.findIdx? fun old => decide (old.id = call.id) with
  | none =>
    right
    refine ⟨?_, rfl⟩
    intro hmem
    obtain ⟨old, hold, hid⟩ := List.mem_map.mp hmem
    have hnone := List.findIdx?_eq_none_iff.mp hfound old hold
    rw [hid] at hnone
    exact absurd hnone (by simp)
  | some index =>
    left
    obtain ⟨hlt, hid, _⟩ := List.findIdx?_eq_some_iff_getElem.mp hfound
    have hid := of_decide_eq_true hid
    refine ⟨hid ▸ List.mem_map_of_mem (List.getElem_mem hlt), ?_⟩
    dsimp only
    rw [List.getElem?_eq_getElem hlt]
    apply List.ext_getElem
    · simp
    · intro j hj hj'
      rw [List.length_set] at hj
      rw [List.getElem_set, List.getElem_map]
      by_cases hsame : index = j
      · subst hsame
        rw [if_pos rfl, if_pos hid]
      · have hother : merged[j].id ≠ call.id := by
          intro heq
          apply hsame
          have hindex : index < (ids merged).length := by
            rw [ids, List.length_map]
            exact hlt
          apply (List.getElem?_inj hindex hnodup).mp
          simp [ids, hlt, hj, hid, heq]
        rw [if_neg hsame, if_neg hother]

/-- The saved calls stay in their order, each with what the snapshot says about it. -/
theorem foldl_mergeCall (reported : List ToolCall) : ∀ merged : List ToolCall, (ids merged).Nodup →
    ∃ added, reported.foldl mergeCall merged = merged.map (refreshedBy reported) ++ added ∧
      (ids (reported.foldl mergeCall merged)).Nodup := by
  induction reported with
  | nil =>
    intro merged hnodup
    refine ⟨[], ?_, hnodup⟩
    rw [List.append_nil]
    exact (List.map_id merged).symm
  | cons call rest ih =>
    intro merged hnodup
    rw [List.foldl_cons]
    rcases mergeCall_cases merged call hnodup with ⟨_, hmerge⟩ | ⟨hnew, hmerge⟩
    · have hids : ids (mergeCall merged call) = ids merged := by
        rw [hmerge, ids, List.map_map]
        apply List.map_congr_left
        intro old _
        by_cases hold : old.id = call.id
        · simp [hold, refresh_id]
        · simp [hold]
      obtain ⟨added, hadded, hrest⟩ := ih (mergeCall merged call) (hids ▸ hnodup)
      refine ⟨added, ?_, hrest⟩
      rw [hadded, hmerge, List.map_map]
      congr 1
      apply List.map_congr_left
      intro old _
      by_cases hold : old.id = call.id
      · rw [Function.comp_apply, if_pos hold, refreshedBy_cons_same hold.symm]
      · rw [Function.comp_apply, if_neg hold, refreshedBy_cons_other (fun h => hold h.symm)]
    · have hsame : merged.map (refreshedBy (call :: rest)) = merged.map (refreshedBy rest) := by
        apply List.map_congr_left
        intro old hold
        apply refreshedBy_cons_other
        intro hid
        exact hnew (hid ▸ List.mem_map_of_mem hold)
      rw [hsame, hmerge]
      split
      · have happended : (ids (merged ++ [call])).Nodup := by
          rw [ids, List.map_append, List.map_singleton, List.nodup_append]
          refine ⟨hnodup, List.nodup_singleton _, ?_⟩
          intro a ha b hb hab
          exact hnew (List.mem_singleton.mp hb ▸ hab ▸ ha)
        obtain ⟨added, hadded, hrest⟩ := ih (merged ++ [call]) happended
        refine ⟨refreshedBy rest call :: added, ?_, hrest⟩
        rw [hadded, List.map_append, List.append_assoc]
        rfl
      · exact ih merged hnodup

end Fold

section Budget

theorem dumpsLength_mono {calls longer : List ToolCall} (h : calls <+: longer) :
    dumpsLength calls ≤ dumpsLength longer := by
  obtain ⟨rest, rfl⟩ := h
  unfold dumpsLength
  rw [List.map_append, List.sum_append, List.length_append]
  omega

theorem selectCalls_first (calls selected : List ToolCall) :
    ∃ p, p <+: calls ∧ selectCalls selected calls = selected ++ p := by
  induction calls generalizing selected with
  | nil => exact ⟨[], List.nil_prefix, (List.append_nil _).symm⟩
  | cons call rest ih =>
    rw [selectCalls]
    split
    · exact ⟨[], List.nil_prefix, (List.append_nil _).symm⟩
    · obtain ⟨p, hp, hselect⟩ := ih (selected ++ [call])
      refine ⟨call :: p, (List.prefix_cons_inj call).mpr hp, ?_⟩
      rw [hselect, List.append_assoc]
      rfl

/-- A call is selected where everything up to it fits. -/
theorem selectCalls_iff (calls : List ToolCall) :
    ∀ (selected earlier : List ToolCall) (call : ToolCall), earlier ++ [call] <+: calls →
      (selected ++ (earlier ++ [call]) <+: selectCalls selected calls ↔
        dumpsLength (selected ++ (earlier ++ [call])) ≤ maxSerialized) := by
  induction calls with
  | nil =>
    intro selected earlier call hprefix
    exact absurd (List.prefix_nil.mp hprefix) (by simp)
  | cons first rest ih =>
    intro selected earlier call hprefix
    have hsplit : ∃ tail, earlier ++ [call] = first :: tail ∧ tail <+: rest := by
      cases hcons : earlier ++ [call] with
      | nil => exact absurd hcons (by simp)
      | cons head tail =>
        rw [hcons] at hprefix
        obtain ⟨rfl, htail⟩ := List.cons_prefix_cons.mp hprefix
        exact ⟨tail, rfl, htail⟩
    obtain ⟨tail, hcons, htail⟩ := hsplit
    have hshift : selected ++ (earlier ++ [call]) = (selected ++ [first]) ++ tail := by
      rw [hcons, List.append_assoc]
      rfl
    rw [selectCalls]
    split
    · rename_i hover
      constructor
      · intro hselected
        have hlength := hselected.length_le
        rw [List.length_append, List.length_append, List.length_singleton] at hlength
        omega
      · intro hfits
        have hmono : dumpsLength (selected ++ [first]) ≤ dumpsLength
            (selected ++ (earlier ++ [call])) := by
          rw [hshift]
          exact dumpsLength_mono (List.prefix_append _ _)
        omega
    · rename_i hfits
      rw [hshift]
      rcases List.eq_nil_or_concat' tail with rfl | ⟨init, last, rfl⟩
      · rw [List.append_nil]
        obtain ⟨p, _, hselect⟩ := selectCalls_first rest (selected ++ [first])
        rw [hselect]
        exact ⟨fun _ => by omega, fun _ => List.prefix_append _ _⟩
      · exact ih (selected ++ [first]) init last htail

theorem serialized_first (calls : List ToolCall) : serializeToolCalls calls <+: calls := by
  obtain ⟨p, hp, hselect⟩ := selectCalls_first (calls.take maxCalls) []
  rw [serializeToolCalls, hselect]
  exact hp.trans (List.take_prefix _ _)

theorem serialize_short (calls : List ToolCall) :
    deserializeToolCalls (serializeToolCalls calls) = serializeToolCalls calls := by
  obtain ⟨p, hp, hselect⟩ := selectCalls_first (calls.take maxCalls) []
  have hlength := hp.length_le
  rw [List.length_take] at hlength
  rw [deserializeToolCalls, serializeToolCalls, hselect, List.nil_append]
  exact List.take_of_length_le (by omega)

/-- A call of the list is serialized where it is among the first and everything up to it fits. -/
theorem serialize_iff {calls earlier later : List ToolCall} {call : ToolCall}
    (hsplit : calls = earlier ++ call :: later) (hcount : earlier.length < maxCalls) :
    earlier ++ [call] <+: serializeToolCalls calls ↔
      dumpsLength (earlier ++ [call]) ≤ maxSerialized := by
  have hprefix : earlier ++ [call] <+: calls.take maxCalls := by
    rw [List.prefix_take_iff]
    refine ⟨⟨later, by rw [hsplit, List.append_assoc]; rfl⟩, ?_⟩
    rw [List.length_append, List.length_singleton]
    omega
  exact selectCalls_iff (calls.take maxCalls) [] earlier call hprefix

end Budget

section Step

variable (lib : Stdlib)

theorem orText_ne_nil (new old : Text) : orText new old ≠ [] ↔ new ≠ [] ∨ old ≠ [] := by
  unfold orText
  split
  · rename_i hnew
    simp [hnew]
  · rename_i hnew
    simp [hnew]

theorem refresh_text {field : ToolCall → Text} (hfield : field ∈ callTexts) (old call : ToolCall) :
    field (refresh old call) ≠ [] ↔ field call ≠ [] ∨ field old ≠ [] := by
  simp only [callTexts, List.mem_cons, List.not_mem_nil, or_false] at hfield
  rcases hfield with rfl | rfl | rfl
  · exact orText_ne_nil _ _
  · exact orText_ne_nil _ _
  · exact orText_ne_nil _ _

/-- A refreshed call has the texts it had and those the snapshot has for it. -/
theorem refreshedBy_text {field : ToolCall → Text} (hfield : field ∈ callTexts)
    (reported : List ToolCall) (call : ToolCall) :
    field (refreshedBy reported call) ≠ [] ↔
      field call ≠ [] ∨ ∃ new ∈ reported, new.id = call.id ∧ field new ≠ [] := by
  induction reported generalizing call with
  | nil => simp [refreshedBy]
  | cons new rest ih =>
    by_cases hid : new.id = call.id
    · rw [refreshedBy_cons_same hid, ih, refresh_text hfield, refresh_id]
      simp only [List.mem_cons, exists_eq_or_imp, hid]
      tauto
    · rw [refreshedBy_cons_other hid, ih]
      simp only [List.mem_cons, exists_eq_or_imp, hid, false_and, false_or]

theorem isDomCall_congr {first second : ToolCall} (h : first.id = second.id) :
    isDomCall first = isDomCall second := by
  rw [isDomCall, isDomCall, h]

/-- The calls of a stream identifier are reported as they come. -/
theorem reported_iff {stored incoming : List ToolCall} {call new : ToolCall}
    (hstream : isDomCall call = false) (hid : new.id = call.id) :
    new ∈ reportedCalls lib stored incoming ↔ new ∈ incoming := by
  rw [reportedCalls, List.mem_filter, isDomCall_congr hid, hstream]
  simp

theorem savedCalls_length (stored incoming : List ToolCall) :
    (savedCalls lib stored incoming).length ≤ maxCalls := by
  have hdedupe := dedupe_length
    ((deserializeToolCalls stored).map (upgradeCall lib (streamCalls stored incoming)))
  rw [List.length_map, deserializeToolCalls, List.length_take] at hdedupe
  unfold savedCalls deserializeToolCalls
  omega

/-- The saved calls are no more than a list may hold. -/
theorem saved_room {stored incoming earlier later : List ToolCall} {kept : ToolCall}
    {f : ToolCall → ToolCall} (h : savedCalls lib stored incoming = earlier ++ kept :: later) :
    (earlier.map f).length < maxCalls := by
  have hlength := savedCalls_length lib stored incoming
  rw [h, List.length_append, List.length_cons] at hlength
  rw [List.length_map]
  omega

/-- What stands ahead of a saved call after the merge. -/
theorem saved_split {reported calls saved earlier later added : List ToolCall} {kept : ToolCall}
    (hfold : calls = saved.map (refreshedBy reported) ++ added)
    (hsaved : saved = earlier ++ kept :: later) :
    calls = earlier.map (refreshedBy reported) ++ refreshedBy reported kept ::
      (later.map (refreshedBy reported) ++ added) := by
  rw [hfold, hsaved, List.map_append, List.append_assoc]
  rfl

/-- One merge retains the saved calls exactly where it keeps each in its place and size. -/
theorem retains_iff (stored incoming : List ToolCall) :
    Retains stored (mergeToolCalls lib stored incoming) ↔ Keeps lib stored incoming := by
  by_cases hempty : incoming = []
  · subst hempty
    rw [mergeToolCalls_nil]
    constructor
    · intro _ hne
      exact absurd rfl hne
    · intro _ call hcall _
      exact ⟨call, hcall, rfl, fun _ _ h => h⟩
  · have hmerge : mergeToolCalls lib stored incoming =
        serializeToolCalls ((reportedCalls lib stored incoming).foldl mergeCall
          (savedCalls lib stored incoming)) := by
      rw [mergeToolCalls, if_neg hempty]
      rfl
    obtain ⟨added, hfold, hnodup⟩ := foldl_mergeCall (reportedCalls lib stored incoming)
      (savedCalls lib stored incoming) (dedupe_nodup _)
    have hshort : deserializeToolCalls (mergeToolCalls lib stored incoming) =
        mergeToolCalls lib stored incoming := by
      rw [hmerge]
      exact serialize_short _
    rw [Retains, hshort, hmerge]
    constructor
    · intro h _ call hcall hstream
      obtain ⟨kept, hkept, hid, htexts⟩ := h call hcall hstream
      have hsame : upgradeCall lib (streamCalls stored incoming) call = call := by
        rw [upgradeCall, hstream]
        rfl
      obtain ⟨earlier, first, later, hsaved, hfirst⟩ := split_of_id
        (mem_ids_dedupe (List.mem_map.mpr ⟨call, hcall, hsame⟩))
      have hsplit := saved_split hfold hsaved
      obtain ⟨rfl, hprefix⟩ := prefix_of_mem (serialized_first _) hsplit hnodup hkept
        (hid.trans (hfirst.symm.trans (refreshedBy_id _ _).symm))
      refine ⟨earlier, first, later, hsaved, hfirst, ?_, ?_⟩
      · intro field hfield hcalltext
        rcases (refreshedBy_text hfield _ first).mp (htexts field hfield hcalltext) with htext |
          ⟨new, hnew, hnewid, htext⟩
        · exact Or.inl htext
        · rw [hfirst] at hnewid
          exact Or.inr ⟨new, (reported_iff lib hstream hnewid).mp hnew, hnewid, htext⟩
      · rw [List.map_append]
        exact (serialize_iff hsplit (saved_room lib hsaved)).mp hprefix
    · intro h call hcall hstream
      obtain ⟨earlier, first, later, hsaved, hid, htexts, hfits⟩ := h hempty call hcall hstream
      have hsplit := saved_split hfold hsaved
      rw [List.map_append] at hfits
      have hprefix := (serialize_iff hsplit (saved_room lib hsaved)).mpr hfits
      refine ⟨refreshedBy (reportedCalls lib stored incoming) first, ?_,
        (refreshedBy_id _ _).trans hid, ?_⟩
      · exact hprefix.subset (List.mem_append_right _ (List.mem_singleton_self _))
      · intro field hfield hcalltext
        apply (refreshedBy_text hfield _ first).mpr
        rcases htexts field hfield hcalltext with htext | ⟨new, hnew, hnewid, htext⟩
        · exact Or.inl htext
        · exact Or.inr ⟨new, (reported_iff lib hstream hnewid).mpr hnew,
            hnewid.trans hid.symm, htext⟩

end Step

section Runs

variable (lib : Stdlib)

theorem retains_refl (calls : List ToolCall) : Retains calls calls :=
  fun call hcall _ => ⟨call, hcall, rfl, fun _ _ htext => htext⟩

theorem retains_trans {first second third : List ToolCall} (h : Retains first second)
    (h' : Retains second third) : Retains first third := by
  intro call hcall hstream
  obtain ⟨kept, hkept, hid, htexts⟩ := h call hcall hstream
  obtain ⟨last, hlast, hlastId, hlastTexts⟩ := h' kept hkept ((isDomCall_congr hid).trans hstream)
  exact ⟨last, hlast, hlastId.trans hid, fun field hfield htext =>
    hlastTexts field hfield (htexts field hfield htext)⟩

/-- What a run of merges leaves of a stored list. -/
def mergeAll (stored : List ToolCall) (snapshots : List (List ToolCall)) : List ToolCall :=
  final (mergeStep lib) stored snapshots

/-- Whatever is saved at some point of the run is there at every later point. -/
def RetainedThroughout (stored : List ToolCall) (snapshots : List (List ToolCall)) : Prop :=
  ∀ earlier between later, snapshots = earlier ++ between ++ later →
    Retains (mergeAll lib stored earlier) (mergeAll lib stored (earlier ++ between))

theorem retains_run {stored : List ToolCall} {snapshots : List (List ToolCall)}
    (h : Meets (mergeStep lib) (Keeps lib) stored snapshots) :
    Retains stored (mergeAll lib stored snapshots) := by
  induction snapshots generalizing stored with
  | nil => exact retains_refl stored
  | cons incoming rest ih =>
    exact retains_trans ((retains_iff lib stored incoming).mpr h.1) (ih h.2)

/-- The saved calls are retained over a run exactly when every merge of it keeps them. -/
theorem tool_calls_retained_iff (stored : List ToolCall) (snapshots : List (List ToolCall)) :
    RetainedThroughout lib stored snapshots ↔
      Meets (mergeStep lib) (Keeps lib) stored snapshots := by
  constructor
  · intro h
    induction snapshots generalizing stored with
    | nil => exact True.intro
    | cons incoming rest ih =>
      refine ⟨(retains_iff lib stored incoming).mp (h [] [incoming] rest rfl), ?_⟩
      apply ih
      intro earlier between later hsplit
      exact h (incoming :: earlier) between later (by rw [hsplit]; rfl)
  · rintro h earlier between later rfl
    have hearlier := (meets_append (mergeStep lib) (Keeps lib) stored _ later).mp h
    have hbetween := (meets_append (mergeStep lib) (Keeps lib) stored earlier between).mp hearlier.1
    have hrun := retains_run lib hbetween.2
    rw [mergeAll, mergeAll, final_append]
    exact hrun

end Runs

def callOf (id connector action arguments : String) : ToolCall :=
  { id := id.toList, connector := connector.toList, action := action.toList,
    status := "running".toList, arguments := arguments.toList }

/-- A visible heading, the call it is for under an unknown connector, and the call again under
its connector. -/
def renamedConnector : List (List ToolCall) :=
  [[callOf "dom-tool-0" "" "Used Glass" ""], [callOf "call-1" "Tool" "run" "ls"],
    [callOf "call-1" "Glass" "run" ""]]

/-- The heading takes the place of the saved call, without its arguments. -/
theorem placeholder_displaces_call : ¬ RetainedThroughout Service.plainLib [] renamedConnector := by
  intro h
  have hrow : (mergeAll Service.plainLib [] (renamedConnector.take 2)).any (fun call =>
      decide (call ∈ deserializeToolCalls
        (mergeAll Service.plainLib [] (renamedConnector.take 2))) &&
        !isDomCall call && decide (call.id = "call-1".toList ∧ call.arguments ≠ [])) = true := by
    decide +kernel
  obtain ⟨call, _, hcall⟩ := List.any_eq_true.mp hrow
  simp only [Bool.and_eq_true, Bool.not_eq_true', decide_eq_true_eq] at hcall
  obtain ⟨⟨hmem, hstream⟩, hid, harguments⟩ := hcall
  obtain ⟨kept, hkept, hkeptId, htexts⟩ := h (renamedConnector.take 2) (renamedConnector.drop 2) []
    (by rw [List.append_nil, List.take_append_drop]) call hmem hstream
  have hlost : (deserializeToolCalls (mergeAll Service.plainLib []
      (renamedConnector.take 2 ++ renamedConnector.drop 2))).all
      (fun call => decide (call.id = "call-1".toList → call.arguments = [])) = true := by
    decide +kernel
  exact htexts ToolCall.arguments List.mem_cons_self harguments
    (of_decide_eq_true (List.all_eq_true.mp hlost kept hkept) (hkeptId.trans hid))

end Prompta.ToolRetention
