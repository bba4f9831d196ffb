import Prompta.ToolBookkeeping
import Prompta.ToolRetention

/-!
Finished tool calls over the snapshots of a run. A snapshot that says `running` does not reopen a
finished call, but one that says `observed` takes the mark off, and the next one finds nothing to
hold. In the store a call can also lose its place, to an upgraded heading or to the limit of the
serialized size.
-/
namespace Prompta.FinishedTools

open Texts DisplayBlocks ToolCalls JsonValues ToolEvents ToolRetention ToolBookkeeping Runs

def Finished (calls : List ToolCall) (id : Text) : Prop :=
  ∃ call, findCall calls id = some call ∧ isFinished call.status = true

def Running (calls : List ToolCall) (id : Text) : Prop :=
  ∃ call, findCall calls id = some call ∧ call.status = running

theorem Finished.not_running {calls : List ToolCall} {id : Text} (h : Finished calls id) :
    ¬Running calls id := by
  intro hrunning
  obtain ⟨call, hcall, hfinished⟩ := h
  obtain ⟨call', hcall', hstatus⟩ := hrunning
  rw [hcall] at hcall'
  cases hcall'
  exact not_running_of_finished hfinished hstatus

theorem finished_of_any {calls : List ToolCall} {id : Text}
    (h : (findCall calls id).any (fun call => isFinished call.status) = true) :
    Finished calls id := by
  obtain ⟨call, hcall, hfinished⟩ := (Option.any_eq_true _ _).mp h
  exact ⟨call, hcall, hfinished⟩

theorem running_of_any {calls : List ToolCall} {id : Text}
    (h : (findCall calls id).any (fun call => decide (call.status = running)) = true) :
    Running calls id := by
  obtain ⟨call, hcall, hrunning⟩ := (Option.any_eq_true _ _).mp h
  exact ⟨call, hcall, of_decide_eq_true hrunning⟩

theorem findCall_of_mem {calls : List ToolCall} {call : ToolCall} (hnodup : (ids calls).Nodup)
    (h : call ∈ calls) : findCall calls call.id = some call := by
  have hmem : call.id ∈ callIds calls := List.mem_map_of_mem h
  obtain ⟨found, hfound⟩ := Option.isSome_iff_exists.mp (findCall_isSome.mpr hmem)
  have hsame : found = call := List.inj_on_of_nodup_map hnodup
    (List.mem_of_find?_eq_some hfound) h (findCall_id hfound)
  rw [hfound, hsame]

section Store

variable (lib : Stdlib) (id : Text)

/-- A finished call keeps its place in the merge, and the snapshot says of it nothing else than
that it runs or is finished. -/
def HoldsStored (stored incoming : List ToolCall) : Prop :=
  incoming ≠ [] → Finished (deserializeToolCalls stored) id →
    ∃ earlier kept later, savedCalls lib stored incoming = earlier ++ kept :: later ∧
      kept.id = id ∧ isFinished kept.status = true ∧
      (∀ new ∈ reportedCalls lib stored incoming, new.id = id →
        new.status = running ∨ isFinished new.status = true) ∧
      dumpsLength ((earlier ++ [kept]).map (refreshedBy (reportedCalls lib stored incoming))) ≤
        maxSerialized

variable {lib id}

theorem refresh_finished {old call : ToolCall} (hold : isFinished old.status = true)
    (hcall : call.status = running ∨ isFinished call.status = true) :
    isFinished (refresh old call).status = true := by
  unfold refresh
  dsimp only
  split
  · exact hold
  · next hopen =>
    rcases hcall with hrunning | hfinished
    · exfalso
      apply hopen
      rw [hrunning]
      rcases of_decide_eq_true hold with hstatus | hstatus
      · rw [hstatus]
        decide
      · rw [hstatus]
        decide
    · exact hfinished

/-- A snapshot that says no more than that a finished call runs does not reopen it. -/
theorem refreshedBy_finished {reported : List ToolCall} {call : ToolCall}
    (hcall : isFinished call.status = true)
    (hreported : ∀ new ∈ reported, new.id = call.id →
      new.status = running ∨ isFinished new.status = true) :
    isFinished (refreshedBy reported call).status = true := by
  induction reported generalizing call with
  | nil => exact hcall
  | cons new rest ih =>
    by_cases hid : new.id = call.id
    · rw [refreshedBy_cons_same hid]
      apply ih
      · exact refresh_finished hcall (hreported new List.mem_cons_self hid)
      · intro later hlater hlaterId
        rw [refresh_id] at hlaterId
        exact hreported later (List.mem_cons_of_mem new hlater) (hlaterId.trans hid)
    · rw [refreshedBy_cons_other hid]
      exact ih hcall fun later hlater => hreported later (List.mem_cons_of_mem new hlater)

/-- A merge that holds the call leaves it finished. -/
theorem merge_finished {stored incoming : List ToolCall}
    (hholds : HoldsStored lib id stored incoming)
    (h : Finished (deserializeToolCalls stored) id) :
    Finished (deserializeToolCalls (mergeToolCalls lib stored incoming)) id := by
  by_cases hempty : incoming = []
  · rw [hempty, mergeToolCalls_nil]
    exact h
  · obtain ⟨earlier, kept, later, hsaved, hid, hfinished, hreported, hfits⟩ := hholds hempty h
    have hmerge : mergeToolCalls lib stored incoming =
        serializeToolCalls ((reportedCalls lib stored incoming).foldl mergeCall
          (savedCalls lib stored incoming)) := by
      rw [mergeToolCalls, if_neg hempty]
      rfl
    obtain ⟨added, hfold, hnodup⟩ := foldl_mergeCall (reportedCalls lib stored incoming)
      (savedCalls lib stored incoming) (dedupe_nodup _)
    have hsplit := saved_split hfold hsaved
    rw [List.map_append] at hfits
    have hplace := (serialize_iff hsplit (saved_room lib hsaved)).mpr hfits
    have hkept : refreshedBy (reportedCalls lib stored incoming) kept ∈
        serializeToolCalls ((reportedCalls lib stored incoming).foldl mergeCall
          (savedCalls lib stored incoming)) :=
      hplace.subset (List.mem_append_right _ (List.mem_singleton_self _))
    have hids : (ids (serializeToolCalls ((reportedCalls lib stored incoming).foldl mergeCall
        (savedCalls lib stored incoming)))).Nodup :=
      hnodup.sublist ((serialized_first _).sublist.map ToolCall.id)
    have hfound := findCall_of_mem hids hkept
    rw [refreshedBy_id, hid] at hfound
    rw [hmerge, serialize_short]
    refine ⟨_, hfound, refreshedBy_finished hfinished ?_⟩
    intro new hnew hnewId
    exact hreported new hnew (hnewId.trans hid)

/-- By induction on the snapshots. -/
theorem mergeAll_finished {stored : List ToolCall} {snapshots : List (List ToolCall)}
    (h : Finished (deserializeToolCalls stored) id)
    (hrun : Meets (mergeStep lib) (HoldsStored lib id) stored snapshots) :
    Finished (deserializeToolCalls (mergeAll lib stored snapshots)) id :=
  meets_invariant (mergeStep lib) (HoldsStored lib id)
    (fun stored => Finished (deserializeToolCalls stored) id)
    (fun _ _ hholds hfinished => merge_finished hholds hfinished) stored h snapshots hrun

end Store

section Collector

variable (codec : Codec) (id : Text)

def isInvocation (message : Fields) : Bool :=
  let i := readInvocation codec message
  !((message.get "metadata").record.get "is_visually_hidden_from_conversation").isTrue &&
    decide (((message.get "author").record.get "role").text = "assistant".toList) &&
    !(!i.isCall || decide (i.action = []) || (i.toAll && !i.isEnvelope))

/-- A message does not say of a finished call that it was observed. -/
def HoldsCollected (s : ToolEventCollector) (seen : Stamp × Fields) : Prop :=
  isInvocation codec seen.2 = true → identifierOf s seen.2 = id → Finished s.calls id →
    ((readInvocation codec seen.2).parsed.get "status").text ≠ "observed".toList

variable {lib : Stdlib} {codec id} {s : ToolEventCollector}

theorem collect_ignored (now : Stamp) {message : Fields} (hresult : isResult message = false)
    (hcall : isInvocation codec message = false) :
    (collect lib codec s (now, message)).1 = s := by
  unfold isResult at hresult
  unfold isInvocation at hcall
  unfold collect observe
  dsimp only at hcall ⊢
  split
  · rfl
  · next hvisible =>
    rw [Bool.not_eq_true] at hvisible
    rw [hvisible, Bool.not_false, Bool.true_and, decide_eq_false_iff_not] at hresult
    rw [if_neg hresult]
    split
    · rfl
    · next hrole =>
      rw [not_not] at hrole
      rw [hvisible, hrole, Bool.not_false, decide_eq_true rfl, Bool.true_and, Bool.true_and,
        Bool.not_eq_false'] at hcall
      rw [if_pos hcall]

/-- A status that is read is one of four. -/
theorem finished_of_read {t : Text} (h : isRunStatus t = true) (hobserved : t ≠ "observed".toList)
    (hrunning : t ≠ "running".toList) : isFinished t = true := by
  have hmem := of_decide_eq_true h
  simp only [List.map_cons, List.map_nil, List.mem_cons, List.not_mem_nil, or_false] at hmem
  rcases hmem with hmem | hmem | hmem | hmem
  · exact absurd hmem hrunning
  · exact decide_eq_true (Or.inl hmem)
  · exact decide_eq_true (Or.inr hmem)
  · exact absurd hmem hobserved

/-- An invocation of a finished call leaves it finished, unless it says `observed`. -/
theorem invocationStatus_finished {i : Invocation} {call : ToolCall}
    (hcall : isFinished call.status = true)
    (hstatus : (i.parsed.get "status").text ≠ "observed".toList) :
    isFinished (invocationStatus i (some call)) = true := by
  rw [invocationStatus_some]
  split
  · exact hcall
  · next hcond =>
    apply finished_of_read (writtenStatus_known i)
    · exact fun h => hstatus (writtenStatus_observed h)
    · intro h
      exact hcond (by rw [hcall, Bool.true_and]; exact decide_eq_true h)

theorem collect_finished {seen : Stamp × Fields} (hs : Books s)
    (hholds : HoldsCollected codec id s seen) (h : Finished s.calls id) :
    Finished (collect lib codec s seen).1.calls id := by
  obtain ⟨now, message⟩ := seen
  cases hresult : isResult message with
  | true =>
    rw [collect_result now hresult]
    rcases @Books.observeResult_recorded lib codec s hs message with
      hsame | ⟨key, entry, hkey, hentry, hrec⟩
    · rw [hsame]
      exact h
    · unfold Finished
      rw [hrec.calls_eq, findCall_put]
      split
      · exact ⟨_, rfl, finishedCall_status message entry⟩
      · exact h
  | false =>
    cases hcall : isInvocation codec message with
    | false =>
      rw [collect_ignored now hresult hcall]
      exact h
    | true =>
      rcases @collect_other lib codec s now message hresult with hsame | hobserved
      · rw [hsame]
        exact h
      · rw [hobserved]
        rcases @observeCall_recorded lib codec s now message (readInvocation codec message) with
          hsame | hrec
        · rw [hsame]
          exact h
        · unfold Finished
          rw [hrec.calls_eq, findCall_put]
          split
          · next hid =>
            rw [recordedCall_id] at hid
            obtain ⟨call, hfound, hfinished⟩ := h
            refine ⟨_, rfl, ?_⟩
            rw [recordedCall_status, ← hid, hfound]
            exact invocationStatus_finished hfinished
              (hholds hcall hid.symm ⟨call, hfound, hfinished⟩)
          · exact h

/-- By induction on the messages. -/
theorem collected_finished {run : List (Stamp × Fields)} (hs : Books s) (h : Finished s.calls id)
    (hrun : Meets (collect lib codec) (HoldsCollected codec id) s run) :
    Finished (final (collect lib codec) s run).calls id := by
  have hboth := meets_invariant (collect lib codec) (HoldsCollected codec id)
    (fun s => Books s ∧ Finished s.calls id)
    (fun s seen hholds hinv => ⟨hinv.1.collect seen, collect_finished hinv.1 hholds hinv.2⟩)
    s ⟨hs, h⟩ run hrun
  exact hboth.2

end Collector

/-- A finished tool call is never re-opened: not in the saved calls, over every run of merges that
hold it, and not in a collector, over every run of messages that hold it. -/
theorem finished_calls_stay (lib : Stdlib) (codec : Codec) (id : Text) (stored : List ToolCall)
    (snapshots : List (List ToolCall)) (messages : List (Stamp × Fields))
    (hstored : Meets (mergeStep lib) (HoldsStored lib id) stored snapshots)
    (hcollected : Meets (collect lib codec) (HoldsCollected codec id) {} messages) :
    (∀ earlier between later, snapshots = earlier ++ between ++ later →
      Finished (deserializeToolCalls (mergeAll lib stored earlier)) id →
      ¬Running (deserializeToolCalls (mergeAll lib stored (earlier ++ between))) id) ∧
    (∀ earlier between later, messages = earlier ++ between ++ later →
      Finished (final (collect lib codec) {} earlier).calls id →
      ¬Running (final (collect lib codec) {} (earlier ++ between)).calls id) := by
  constructor
  · rintro earlier between later rfl hfinished
    have hboth := ((meets_append (mergeStep lib) (HoldsStored lib id) stored _ later).mp hstored).1
    have hbetween := ((meets_append (mergeStep lib) (HoldsStored lib id) stored earlier
      between).mp hboth).2
    rw [mergeAll, final_append]
    exact (mergeAll_finished hfinished hbetween).not_running
  · rintro earlier between later rfl hfinished
    have hboth := ((meets_append (collect lib codec) (HoldsCollected codec id) {} _
      later).mp hcollected).1
    have hbetween := ((meets_append (collect lib codec) (HoldsCollected codec id) {} earlier
      between).mp hboth).2
    rw [final_append]
    exact (collected_finished (books_run earlier) hfinished hbetween).not_running

section Example

def callWith (status : String) : ToolCall :=
  { id := "call-1".toList, action := "run".toList, status := status.toList }

def invocationWith (status : String) : Stamp × Fields :=
  (⟨1, ['1']⟩,
    [field "id" (.str "call-1".toList), field "author"
      (.obj [field "role" (.str "assistant".toList)]), field "recipient" (.str "python".toList),
      field "content" (.obj [field "parts" (.arr [.obj [field "type" (.str "mcpToolCall".toList),
        field "status" (.str status.toList)]])])])

/-- The mark of a finished call is taken off by one snapshot, and the next one reopens it. -/
theorem observed_reopens :
    (∃ earlier between, Finished (deserializeToolCalls (mergeAll Service.plainLib [] earlier))
        "call-1".toList ∧
      Running (deserializeToolCalls (mergeAll Service.plainLib [] (earlier ++ between)))
        "call-1".toList) ∧
    (∃ earlier between, Finished (final (collect Service.plainLib proseCodec) {} earlier).calls
        "call-1".toList ∧
      Running (final (collect Service.plainLib proseCodec) {} (earlier ++ between)).calls
        "call-1".toList) := by
  refine ⟨⟨[[callWith "completed"]], [[callWith "observed"], [callWith "running"]], ?_, ?_⟩,
    ⟨[invocationWith "completed"], [invocationWith "observed", invocationWith "running"], ?_, ?_⟩⟩
  · exact finished_of_any (by decide +kernel)
  · exact running_of_any (by decide +kernel)
  · exact finished_of_any (by decide +kernel)
  · exact running_of_any (by decide +kernel)

theorem finished_calls_stay_replayed :
    (∀ earlier between later,
      [[callWith "completed"], [callWith "running"]] = earlier ++ between ++ later →
      Finished (deserializeToolCalls (mergeAll Service.plainLib [] earlier)) "call-1".toList →
      ¬Running (deserializeToolCalls (mergeAll Service.plainLib [] (earlier ++ between)))
        "call-1".toList) ∧
    (∀ earlier between later,
      [invocationWith "completed", invocationWith "running"] = earlier ++ between ++ later →
      Finished (final (collect Service.plainLib proseCodec) {} earlier).calls "call-1".toList →
      ¬Running (final (collect Service.plainLib proseCodec) {} (earlier ++ between)).calls
        "call-1".toList) := by
  refine finished_calls_stay Service.plainLib proseCodec "call-1".toList []
    [[callWith "completed"], [callWith "running"]]
    [invocationWith "completed", invocationWith "running"] ⟨?_, ?_, trivial⟩ ⟨?_, ?_, trivial⟩
  · intro _ hfinished
    obtain ⟨call, hcall, -⟩ := hfinished
    cases hcall
  · intro _ _
    refine ⟨[], callWith "completed", [], by decide +kernel, rfl, by decide, ?_, by decide +kernel⟩
    intro new hnew _
    have hreported : reportedCalls Service.plainLib
        (mergeToolCalls Service.plainLib [] [callWith "completed"]) [callWith "running"] =
          [callWith "running"] := by
      decide +kernel
    have hmem : new ∈ [callWith "running"] := hreported ▸ hnew
    rw [List.mem_singleton.mp hmem]
    exact Or.inl rfl
  · intro _ _ hfinished
    obtain ⟨call, hcall, -⟩ := hfinished
    cases hcall
  · intro _ _ _
    decide +kernel

end Example

end Prompta.FinishedTools
