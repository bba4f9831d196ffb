import Mathlib.Data.List.Sort
import Mathlib.Logic.Encodable.Basic
import Mathlib.Logic.Equiv.List
import Mathlib.Data.List.Lex
import Prompta.ByteFrames
import Prompta.Runs

/-!
The change signals of the local page. A snapshot takes the versions of the two files of the state
database and, when they differ from those of the last content it read, a digest of two tables;
commits may land between the two.
-/
namespace Prompta.LiveSignals

open ByteFrames Runs

abbrev FileVersion := ℕ × ℕ × ℕ

/-- What the file system says about a file. No file has the inode number zero. -/
structure FileStat where
  ino : ℕ
  size : ℕ
  mtimeNs : ℕ
  ino_pos : 0 < ino

/-- `_version`: a file that cannot be examined has the version zero. -/
def version : Option FileStat → FileVersion
  | some info => (info.ino, info.size, info.mtimeNs)
  | none => (0, 0, 0)

def utf8 (t : String) : Bytes := t.toUTF8.data.toList

theorem utf8_inj {t u : String} (h : utf8 t = utf8 u) : t = u := by
  apply String.toByteArray_inj.mp
  apply ByteArray.ext
  exact Array.toList_inj.mp h

/-- A text column, below the size that the rows can tell apart from the name of a table. -/
structure Field where
  text : String
  short : (utf8 text).length < 1073741824

def Field.bytes (f : Field) : Bytes := utf8 f.text

theorem Field.bytes_inj {f g : Field} (h : f.bytes = g.bytes) : f = g := by
  cases f
  cases g
  obtain rfl := utf8_inj h
  rfl

structure SchedulerRow where
  scope : Field
  name : Field
  key : Field
  valueJson : Field

structure AccountRow where
  key : Field
  valueJson : Field

def SchedulerRow.fields (r : SchedulerRow) : List Bytes :=
  [r.scope.bytes, r.name.bytes, r.key.bytes, r.valueJson.bytes]

def AccountRow.fields (r : AccountRow) : List Bytes := [r.key.bytes, r.valueJson.bytes]

/-- The primary key, and the order of the rows. Texts are compared by their bytes. -/
def SchedulerRow.order (r : SchedulerRow) : List (List ℕ) :=
  [r.scope.bytes, r.name.bytes, r.key.bytes].map fun f => f.map UInt8.toNat

def AccountRow.order (r : AccountRow) : List (List ℕ) := [r.key.bytes.map UInt8.toNat]

/-- The rows of `scheduler_state` and `account_state`. -/
structure StateTables where
  scheduler : List SchedulerRow
  account : List AccountRow
  scheduler_keys : (scheduler.map SchedulerRow.order).Nodup
  account_keys : (account.map AccountRow.order).Nodup

def sortRows {ρ : Type*} (order : ρ → List (List ℕ)) (rows : List ρ) : List ρ :=
  rows.insertionSort fun a b => order a ≤ order b

def StateTables.schedulerRows (t : StateTables) : List (List Bytes) :=
  (sortRows SchedulerRow.order t.scheduler).map SchedulerRow.fields

def StateTables.accountRows (t : StateTables) : List (List Bytes) :=
  (sortRows AccountRow.order t.account).map AccountRow.fields

def StateTables.bytes (t : StateTables) : Bytes :=
  utf8 "scheduler_state" ++
    (records t.schedulerRows ++ (utf8 "account_state" ++ records t.accountRows))

def SameRows (t t' : StateTables) : Prop :=
  (∀ r, r ∈ t.scheduler ↔ r ∈ t'.scheduler) ∧ ∀ r, r ∈ t.account ↔ r ∈ t'.account

section Encoding

/-- Sorted by distinct keys, two lists are equal when they have the same rows. -/
theorem sortRows_eq {ρ : Type*} {order : ρ → List (List ℕ)} {rows rows' : List ρ}
    (hkeys : (rows.map order).Nodup) (hkeys' : (rows'.map order).Nodup) :
    sortRows order rows = sortRows order rows' ↔ ∀ r, r ∈ rows ↔ r ∈ rows' := by
  have hperm := List.perm_insertionSort (fun a b => order a ≤ order b) rows
  have hperm' := List.perm_insertionSort (fun a b => order a ≤ order b) rows'
  constructor
  · intro h r
    rw [← hperm.mem_iff, ← hperm'.mem_iff]
    show r ∈ sortRows order rows ↔ r ∈ sortRows order rows'
    rw [h]
  · intro h
    have hsame : rows.Perm rows' :=
      (List.perm_ext_iff_of_nodup (List.Nodup.of_map order hkeys)
        (List.Nodup.of_map order hkeys')).mpr h
    have htotal : Std.Total (fun a b => order a ≤ order b) :=
      ⟨fun a b => le_total (order a) (order b)⟩
    have htrans : IsTrans ρ (fun a b => order a ≤ order b) :=
      ⟨fun _ _ _ hab hbc => le_trans hab hbc⟩
    apply List.Perm.eq_of_pairwise _ (List.pairwise_insertionSort _ rows)
      (List.pairwise_insertionSort _ rows') (hperm.trans (hsame.trans hperm'.symm))
    intro a b ha hb hab hba
    have ha' : a ∈ rows := hperm.mem_iff.mp ha
    have hb' : b ∈ rows := (h b).mpr (hperm'.mem_iff.mp hb)
    exact List.inj_on_of_nodup_map hkeys ha' hb' (le_antisymm hab hba)

theorem schedulerRow_fields_inj {r r' : SchedulerRow} (h : r.fields = r'.fields) : r = r' := by
  simp only [SchedulerRow.fields, List.cons.injEq, and_true] at h
  obtain ⟨hscope, hname, hkey, hvalue⟩ := h
  cases r
  cases r'
  obtain rfl := Field.bytes_inj hscope
  obtain rfl := Field.bytes_inj hname
  obtain rfl := Field.bytes_inj hkey
  obtain rfl := Field.bytes_inj hvalue
  rfl

theorem accountRow_fields_inj {r r' : AccountRow} (h : r.fields = r'.fields) : r = r' := by
  simp only [AccountRow.fields, List.cons.injEq, and_true] at h
  obtain ⟨hkey, hvalue⟩ := h
  cases r
  cases r'
  obtain rfl := Field.bytes_inj hkey
  obtain rfl := Field.bytes_inj hvalue
  rfl

theorem scheduler_regular (t : StateTables) : Regular 4 1073741824 t.schedulerRows := by
  constructor
  · intro row hrow
    obtain ⟨r, _, rfl⟩ := List.mem_map.mp hrow
    rfl
  · intro row hrow f hf
    obtain ⟨r, _, rfl⟩ := List.mem_map.mp hrow
    simp only [SchedulerRow.fields, List.mem_cons, List.not_mem_nil, or_false] at hf
    rcases hf with rfl | rfl | rfl | rfl
    · exact r.scope.short
    · exact r.name.short
    · exact r.key.short
    · exact r.valueJson.short

theorem account_regular (t : StateTables) : Regular 2 1073741824 t.accountRows := by
  constructor
  · intro row hrow
    obtain ⟨r, _, rfl⟩ := List.mem_map.mp hrow
    rfl
  · intro row hrow f hf
    obtain ⟨r, _, rfl⟩ := List.mem_map.mp hrow
    simp only [AccountRow.fields, List.mem_cons, List.not_mem_nil, or_false] at hf
    rcases hf with rfl | rfl
    · exact r.key.short
    · exact r.valueJson.short

/-- The name of the second table starts with a larger byte than any length. -/
theorem account_marks : Marks (utf8 "account_state") 1073741824 := by
  intro n hn x y h
  have hname : utf8 "account_state" = 97 :: (utf8 "account_state").tail := by decide
  rw [hname, be32] at h
  have hbyte : UInt8.ofNat (n / 16777216) = UInt8.ofNat 97 := (List.cons.inj h).1
  have hmod := ofNat_inj hbyte
  omega

/-- The bytes tell apart all tables with other rows. -/
theorem bytes_eq_iff (t t' : StateTables) : t.bytes = t'.bytes ↔ SameRows t t' := by
  constructor
  · intro h
    obtain ⟨hscheduler, haccount⟩ := records_cancel (by omega) (by omega) account_marks
      (scheduler_regular t) (scheduler_regular t') (List.append_cancel_left h)
    have haccount := records_inj (by omega) (by omega) (account_regular t)
        (account_regular t') haccount
    have hinj : Function.Injective SchedulerRow.fields := fun _ _ => schedulerRow_fields_inj
    have hinj' : Function.Injective AccountRow.fields := fun _ _ => accountRow_fields_inj
    exact ⟨(sortRows_eq t.scheduler_keys t'.scheduler_keys).mp
      (List.map_injective_iff.mpr hinj hscheduler),
      (sortRows_eq t.account_keys t'.account_keys).mp (List.map_injective_iff.mpr hinj' haccount)⟩
  · intro h
    have hscheduler := (sortRows_eq t.scheduler_keys t'.scheduler_keys).mpr h.1
    have haccount := (sortRows_eq t.account_keys t'.account_keys).mpr h.2
    rw [StateTables.bytes, StateTables.bytes, StateTables.schedulerRows, StateTables.schedulerRows,
      StateTables.accountRows, StateTables.accountRows, hscheduler, haccount]

end Encoding

section Signals

variable (digest : Bytes → ℕ)

def contentVersion (t : StateTables) : FileVersion :=
  (1, t.schedulerRows.length + t.accountRows.length, digest t.bytes)

def jobStateVersion (readable : Bool) (t : StateTables) : Option FileVersion :=
  if readable then some (contentVersion digest t) else none

/-- The files of the other databases. -/
inductive OtherFile
  | jobs
  | jobsWal
  | chats
  | chatsWal
  | sends
  | sendsWal
  deriving DecidableEq

structure LiveRevisions where
  jobs : FileVersion × FileVersion × FileVersion
  chats : FileVersion × FileVersion × FileVersion × FileVersion

def LiveRevisions.state (r : LiveRevisions) : FileVersion := r.jobs.2.2

/-- What `LocalEventSignals` keeps from one snapshot to the next. -/
structure Signals where
  stateFileVersions : Option (FileVersion × FileVersion) := none
  stateRevision : FileVersion := (0, 0, 0)

/-- A snapshot that has the versions of the state files: whether both could be examined, and
whether no commit has landed since. -/
structure Running where
  files : FileVersion × FileVersion
  found : Bool
  undisturbed : Bool

/-- The files, the tables and the signals, with the versions that the state files have had. -/
structure World where
  stateFile : Option FileStat
  stateWal : Option FileStat
  otherFiles : OtherFile → Option FileStat
  tables : StateTables
  signals : Signals
  running : Option Running
  past : List (FileVersion × FileVersion)

def World.stateVersions (w : World) : FileVersion × FileVersion :=
  (version w.stateFile, version w.stateWal)

def start (stateFile stateWal : Option FileStat) (otherFiles : OtherFile → Option FileStat)
    (tables : StateTables) : World :=
  { stateFile, stateWal, otherFiles, tables, signals := {}, running := none
    past := [(version stateFile, version stateWal)] }

/-- The lock keeps snapshots apart, so one at a time is running. -/
inductive Action
  | commit (stateFile stateWal : Option FileStat) (tables : StateTables)
  | write (file : OtherFile) (stat : Option FileStat)
  | stats (failed failedWal : Bool)
  | finish (readable : Bool) (failed : OtherFile → Bool)

/-- A snapshot that has been taken. -/
structure Taken where
  revisions : LiveRevisions
  undisturbed : Bool
  succeeded : Bool
  tables : StateTables

def observedVersion (failed : Bool) (stat : Option FileStat) : FileVersion :=
  if failed then (0, 0, 0) else version stat

/-- The content is read when the versions differ from those of the last content. -/
def refreshed (readable : Bool) (t : StateTables) (files : FileVersion × FileVersion)
    (s : Signals) :
    Signals :=
  if s.stateFileVersions = some files then s
  else
    match if files = ((0, 0, 0), (0, 0, 0)) then none else jobStateVersion digest readable t with
    | some state => { stateFileVersions := some files, stateRevision := state }
    | none => s

def takeStats (w : World) (failed failedWal : Bool) : World :=
  match w.running with
  | some _ => w
  | none =>
    { w with
      running := some
        { files := (observedVersion failed w.stateFile, observedVersion failedWal w.stateWal)
          found := !failed && !failedWal && w.stateFile.isSome && w.stateWal.isSome
          undisturbed := true } }

def liveRevisions (w : World) (failed : OtherFile → Bool) (state : FileVersion) : LiveRevisions :=
  let observed := fun file => observedVersion (failed file) (w.otherFiles file)
  { jobs := (observed .jobs, observed .jobsWal, state)
    chats := (observed .chats, observed .chatsWal, observed .sends, observed .sendsWal) }

def finish (w : World) (readable : Bool) (failed : OtherFile → Bool) : World × Option Taken :=
  match w.running with
  | none => (w, none)
  | some r =>
    let signals := refreshed digest readable w.tables r.files w.signals
    ({ w with signals, running := none },
      some
        { revisions := liveRevisions w failed signals.stateRevision
          undisturbed := r.undisturbed
          succeeded := r.found && (decide (w.signals.stateFileVersions = some r.files) || readable)
          tables := w.tables })

def commit (w : World) (stateFile stateWal : Option FileStat) (tables : StateTables) : World :=
  { w with
    stateFile, stateWal, tables
    past := (version stateFile, version stateWal) :: w.past
    running := w.running.map fun r => { r with undisturbed := false } }

def step (w : World) : Action → World × Option Taken
  | .commit stateFile stateWal tables => (commit w stateFile stateWal tables, none)
  | .write file stat => ({ w with otherFiles := Function.update w.otherFiles file stat }, none)
  | .stats failed failedWal => (takeStats w failed failedWal, none)
  | .finish readable failed => finish digest w readable failed

/-- A commit changes the version of one of the two files. -/
def Changes (w : World) : Action → Prop
  | .commit stateFile stateWal _ => (version stateFile, version stateWal) ≠ w.stateVersions
  | _ => True

/-- A commit gives the two files versions that they have not had together. -/
def ChangesAnew (w : World) : Action → Prop
  | .commit stateFile stateWal _ => (version stateFile, version stateWal) ∉ w.past
  | _ => True

def Takes (w : World) (actions : List Action) (t : Taken) : Prop :=
  ∃ e ∈ events (step digest) w actions, e.output = some t

/-- No commit during the snapshot, and no failure of what it needs. -/
def Taken.Clean (t : Taken) : Prop := t.undisturbed = true ∧ t.succeeded = true

def Found (v : FileVersion × FileVersion) : Prop := v.1 ≠ (0, 0, 0) ∧ v.2 ≠ (0, 0, 0)

/-- Versions that were observed are past ones, or a file was not found. -/
def Observed (w : World) (v : FileVersion × FileVersion) : Prop := Found v → v ∈ w.past

/-- The cached revision is right as long as its versions are the present ones. -/
structure Kept (w : World) : Prop where
  present : w.stateVersions ∈ w.past
  cached : ∀ v, w.signals.stateFileVersions = some v → Observed w v
  observed : ∀ r, w.running = some r → Observed w r.files
  undisturbed : ∀ r, w.running = some r → r.found = true → r.undisturbed = true →
    r.files = w.stateVersions ∧ Found r.files
  right : ∀ v, w.signals.stateFileVersions = some v → v = w.stateVersions → Found v →
    w.signals.stateRevision = contentVersion digest w.tables

variable {digest} {w : World}

theorem version_found {stat : Option FileStat} (h : stat.isSome = true) :
    version stat ≠ (0, 0, 0) := by
  obtain ⟨info, rfl⟩ := Option.isSome_iff_exists.mp h
  intro hzero
  have hino : info.ino = 0 := congrArg Prod.fst hzero
  have hpos := info.ino_pos
  omega

/-- A refresh leaves the signals, or takes in the tables and the versions. -/
theorem refreshed_cases (readable : Bool) (t : StateTables) (files : FileVersion × FileVersion)
    (s : Signals) :
    refreshed digest readable t files s = s ∨
      refreshed digest readable t files s = ⟨some files, contentVersion digest t⟩ := by
  unfold refreshed jobStateVersion
  split_ifs
  · exact Or.inl rfl
  · exact Or.inl rfl
  · exact Or.inr rfl
  · exact Or.inl rfl

theorem kept_commit {stateFile stateWal : Option FileStat} (tables : StateTables)
    (hnew : (version stateFile, version stateWal) ∉ w.past) (h : Kept digest w) :
    Kept digest (commit w stateFile stateWal tables) := by
  constructor
  · exact List.mem_cons_self
  · intro v hv hfound
    exact List.mem_cons_of_mem _ (h.cached v hv hfound)
  · intro r hr
    obtain ⟨old, hold, rfl⟩ := Option.map_eq_some_iff.mp hr
    intro hfound
    exact List.mem_cons_of_mem _ (h.observed old hold hfound)
  · intro r hr _ hundisturbed
    obtain ⟨r, hr, rfl⟩ := Option.map_eq_some_iff.mp hr
    cases hundisturbed
  · intro v hv hpresent hfound
    exfalso
    apply hnew
    have hpast := h.cached v hv hfound
    rw [hpresent] at hpast
    exact hpast

theorem kept_takeStats (failed failedWal : Bool) (h : Kept digest w) :
    Kept digest (takeStats w failed failedWal) := by
  unfold takeStats
  cases hrunning : w.running with
  | some r => exact h
  | none =>
    have hobserved : ∀ {failed failedWal : Bool},
        Found (observedVersion failed w.stateFile, observedVersion failedWal w.stateWal) →
        (observedVersion failed w.stateFile, observedVersion failedWal w.stateWal) =
        w.stateVersions := by
      intro failed failedWal hfound
      cases failed with
      | true => exact absurd rfl hfound.1
      | false =>
        cases failedWal with
        | true => exact absurd rfl hfound.2
        | false => rfl
    refine ⟨h.present, h.cached, ?_, ?_, h.right⟩
    · intro r hr hfound
      obtain rfl := Option.some.inj hr
      show (_, _) ∈ w.past
      rw [hobserved hfound]
      exact h.present
    · intro r hr hfound _
      obtain rfl := Option.some.inj hr
      simp only [Bool.and_eq_true, Bool.not_eq_true'] at hfound
      obtain ⟨⟨⟨rfl, rfl⟩, hfile⟩, hwal⟩ := hfound
      exact ⟨rfl, version_found hfile, version_found hwal⟩

theorem kept_finish (readable : Bool) (failed : OtherFile → Bool) (h : Kept digest w) :
    Kept digest (finish digest w readable failed).1 := by
  unfold finish
  cases hrunning : w.running with
  | none => exact h
  | some r =>
    dsimp only
    rcases @refreshed_cases digest readable w.tables r.files w.signals with hsame | hread
    · rw [hsame]
      exact ⟨h.present, h.cached, fun _ hr => (by cases hr), fun _ hr => (by cases hr), h.right⟩
    · rw [hread]
      refine ⟨h.present, ?_, fun _ hr => (by cases hr), fun _ hr => (by cases hr),
        fun _ _ _ _ => rfl⟩
      intro v hv
      obtain rfl := Option.some.inj hv
      exact h.observed r hrunning

theorem kept_step (a : Action) (hnew : ChangesAnew w a) (h : Kept digest w) :
    Kept digest (step digest w a).1 := by
  cases a with
  | commit stateFile stateWal tables => exact kept_commit tables hnew h
  | write file stat => exact ⟨h.present, h.cached, h.observed, h.undisturbed, h.right⟩
  | stats failed failedWal => exact kept_takeStats failed failedWal h
  | finish readable failed => exact kept_finish readable failed h

/-- A clean snapshot shows the present content. -/
theorem clean_revision {readable : Bool} {failed : OtherFile → Bool} {t : Taken} (h : Kept digest w)
    (htaken : (finish digest w readable failed).2 = some t) (hclean : t.Clean) :
    t.revisions.state = contentVersion digest t.tables := by
  unfold finish at htaken
  cases hrunning : w.running with
  | none =>
    rw [hrunning] at htaken
    cases htaken
  | some r =>
    rw [hrunning] at htaken
    obtain rfl := Option.some.inj htaken
    obtain ⟨hundisturbed, hsucceeded⟩ := hclean
    simp only [Bool.and_eq_true, Bool.or_eq_true, decide_eq_true_eq] at hsucceeded
    obtain ⟨hpresent, hfound⟩ := h.undisturbed r hrunning hsucceeded.1 hundisturbed
    show (refreshed digest readable w.tables r.files w.signals).stateRevision =
      contentVersion digest w.tables
    unfold refreshed
    by_cases hcached : w.signals.stateFileVersions = some r.files
    · rw [if_pos hcached]
      exact h.right r.files hcached hpresent hfound
    · have hreadable := hsucceeded.2.resolve_left hcached
      have hzero : r.files ≠ ((0, 0, 0), (0, 0, 0)) := by
        intro hzero
        rw [hzero] at hfound
        exact hfound.1 rfl
      rw [if_neg hcached, if_neg hzero, jobStateVersion, if_pos hreadable]

theorem contentVersion_eq_iff (hdigest : Function.Injective digest) (t t' : StateTables) :
    contentVersion digest t = contentVersion digest t' ↔ SameRows t t' := by
  rw [← bytes_eq_iff]
  constructor
  · intro h
    exact hdigest (congrArg (fun v => v.2.2) h)
  · intro h
    have hrows := (bytes_eq_iff t t').mp h
    have hscheduler := (sortRows_eq t.scheduler_keys t'.scheduler_keys).mpr hrows.1
    have haccount := (sortRows_eq t.account_keys t'.account_keys).mpr hrows.2
    rw [contentVersion, contentVersion, h, StateTables.schedulerRows, StateTables.schedulerRows,
      StateTables.accountRows, StateTables.accountRows, hscheduler, haccount]

end Signals

/-- Over every run of commits and snapshots: clean snapshots have the same state revision exactly
when the two tables hold the same rows. -/
theorem state_revisions_eq_iff (digest : Bytes → ℕ) (hdigest : Function.Injective digest)
    (stateFile stateWal : Option FileStat) (otherFiles : OtherFile → Option FileStat)
    (tables : StateTables) (actions : List Action)
    (hnew : Meets (step digest) ChangesAnew (start stateFile stateWal otherFiles tables) actions)
    (t t' : Taken) (ht : Takes digest (start stateFile stateWal otherFiles tables) actions t)
    (ht' : Takes digest (start stateFile stateWal otherFiles tables) actions t')
    (hclean : t.Clean) (hclean' : t'.Clean) :
    t.revisions.state = t'.revisions.state ↔ SameRows t.tables t'.tables := by
  have hstart : Kept digest (start stateFile stateWal otherFiles tables) :=
    { present := List.mem_cons_self
      cached := fun _ h => by cases h
      observed := fun _ h => by cases h
      undisturbed := fun _ h => by cases h
      right := fun _ h => by cases h }
  have hcontent : ∀ t, Takes digest (start stateFile stateWal otherFiles tables) actions
      t → t.Clean →
      t.revisions.state = contentVersion digest t.tables := by
    intro t ht hclean
    obtain ⟨e, he, houtput⟩ := ht
    have hkept := event_invariant (step digest) ChangesAnew (Kept digest)
      (fun _ a hnew h => kept_step a hnew h) _ hstart actions hnew e he
    have hstep := event_step (step digest) _ actions e he
    rw [houtput] at hstep
    cases hinput : e.input with
    | finish readable failed =>
      rw [hinput] at hstep
      exact clean_revision hkept (congrArg Prod.snd hstep) hclean
    | _ =>
      rw [hinput] at hstep
      cases congrArg Prod.snd hstep
  rw [hcontent t ht hclean, hcontent t' ht' hclean']
  exact contentVersion_eq_iff hdigest t.tables t'.tables

section Example

def numberDigest (bytes : Bytes) : ℕ := Encodable.encode (bytes.map UInt8.toNat)

theorem numberDigest_inj : Function.Injective numberDigest := by
  intro a b h
  have hbytes : Function.Injective UInt8.toNat := fun _ _ => UInt8.toNat_inj.mp
  exact List.map_injective_iff.mpr hbytes (Encodable.encode_injective h)

def stateFile : FileStat := ⟨7, 4096, 100, by decide⟩

def wal (size : ℕ) : FileStat := ⟨8, size, 100, by decide⟩

def column (text : String) (h : (utf8 text).length < 1073741824) : Field := ⟨text, h⟩

def resultRow : SchedulerRow :=
  { scope := column "job" (by decide), name := column "a" (by decide)
    key := column "result" (by decide)
    valueJson := column "1" (by decide) }

def noTables : StateTables := ⟨[], [], List.nodup_nil, List.nodup_nil⟩

def oneRow : StateTables := ⟨[resultRow], [], List.nodup_singleton _, List.nodup_nil⟩

def firstWorld : World := start (some stateFile) (some (wal 0)) (fun _ => none) noTables

def snapshot : List Action := [.stats false false, .finish true fun _ => false]

def shown (content tables : StateTables) : Taken :=
  { revisions := liveRevisions firstWorld (fun _ => false) (contentVersion numberDigest content)
    undisturbed := true
    succeeded := true
    tables }

theorem not_sameRows : ¬SameRows noTables oneRow := by
  intro h
  exact absurd ((h.1 resultRow).mpr List.mem_cons_self) List.not_mem_nil

def grownLog : List Action :=
  snapshot ++ (.commit (some stateFile) (some (wal 512)) oneRow :: snapshot)

theorem state_revisions_grown :
    (shown noTables noTables).revisions.state = (shown oneRow oneRow).revisions.state ↔
      SameRows noTables oneRow := by
  refine state_revisions_eq_iff numberDigest numberDigest_inj (some stateFile) (some (wal 0))
    (fun _ => none) noTables grownLog ⟨trivial, trivial, ?_, trivial, trivial, trivial⟩
    (shown noTables noTables) (shown oneRow oneRow) ⟨_, List.mem_of_getElem? (i := 1) rfl, rfl⟩
    ⟨_, List.mem_of_getElem? (i := 4) rfl, rfl⟩ ⟨rfl, rfl⟩ ⟨rfl, rfl⟩
  show _ ∉ _
  decide

/-- The log grows and shrinks again within one tick of the clock. -/
def shrunkLog : List Action :=
  snapshot ++ (.commit (some stateFile) (some (wal 512)) oneRow ::
    .commit (some stateFile) (some (wal 0)) oneRow :: snapshot)

theorem recurring_versions_stale :
    Function.Injective numberDigest ∧ Meets (step numberDigest) Changes firstWorld shrunkLog ∧
      Takes numberDigest firstWorld shrunkLog (shown noTables noTables) ∧
      Takes numberDigest firstWorld shrunkLog (shown noTables oneRow) ∧
      (shown noTables noTables).Clean ∧ (shown noTables oneRow).Clean ∧
      (shown noTables noTables).revisions.state = (shown noTables oneRow).revisions.state ∧
      ¬SameRows (shown noTables noTables).tables (shown noTables oneRow).tables := by
  refine ⟨numberDigest_inj, ⟨trivial, trivial, ?_, ?_, trivial, trivial, trivial⟩,
    ⟨_, List.mem_of_getElem? (i := 1) rfl, rfl⟩, ⟨_, List.mem_of_getElem? (i := 5) rfl, rfl⟩,
    ⟨rfl, rfl⟩,
    ⟨rfl, rfl⟩, rfl, not_sameRows⟩
  · show _ ≠ _
    decide
  · show _ ≠ _
    decide

end Example

end Prompta.LiveSignals
