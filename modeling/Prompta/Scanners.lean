import Mathlib.Data.List.Basic

/-!
Scanning a text from left to right. At each position a test finds nothing, or an occurrence
that ends further on, and the scan goes on behind it. Two scans find the same occurrences if
and only if their tests agree at the positions that the scan reaches.
-/
namespace Prompta.Scanners

structure Occurrence (μ : Type*) where
  start : ℕ
  stop : ℕ
  value : μ
  deriving DecidableEq, Repr

variable {α μ ν : Type*}

section Scan

variable (test : ℕ → Option (ℕ × μ)) (length : ℕ)

def scanFrom : ℕ → ℕ → List (Occurrence μ)
  | 0, _ => []
  | fuel + 1, i =>
    if length ≤ i then []
    else
      match test i with
      | none => scanFrom fuel (i + 1)
      | some (stop, value) => ⟨i, stop, value⟩ :: scanFrom fuel stop

/-- Each round goes on by one position at least, so the length is fuel enough. -/
def scan : List (Occurrence μ) := scanFrom test length length 0

/-- The test finds occurrences of the text that are not empty. -/
def Forward : Prop := ∀ i stop value, test i = some (stop, value) → i < stop ∧ stop ≤ length

/-- The positions at which the scan from a position tests. -/
inductive Reached : ℕ → ℕ → Prop
  | here (i : ℕ) : Reached i i
  | missed {i j : ℕ} (hmiss : test i = none) (hrest : Reached (i + 1) j) : Reached i j
  | passed {i j stop : ℕ} {value : μ} (hfound : test i = some (stop, value))
      (hrest : Reached stop j) : Reached i j

end Scan

section Steps

variable {test : ℕ → Option (ℕ × μ)} {length : ℕ}

theorem scanFrom_done (fuel : ℕ) {i : ℕ} (hi : length ≤ i) : scanFrom test length fuel i = [] := by
  cases fuel with
  | zero => rfl
  | succ fuel => rw [scanFrom, if_pos hi]

theorem scanFrom_missed (fuel : ℕ) {i : ℕ} (hi : i < length) (h : test i = none) :
    scanFrom test length (fuel + 1) i = scanFrom test length fuel (i + 1) := by
  rw [scanFrom, if_neg (by omega), h]

theorem scanFrom_passed (fuel : ℕ) {i stop : ℕ} {value : μ} (hi : i < length)
    (h : test i = some (stop, value)) :
    scanFrom test length (fuel + 1) i = ⟨i, stop, value⟩ :: scanFrom test length fuel stop := by
  rw [scanFrom, if_neg (by omega), h]

/-- What is found starts at the position of the scan or behind it. -/
theorem scanFrom_start (hforward : Forward test length) (fuel i : ℕ) :
    ∀ o ∈ scanFrom test length fuel i, i ≤ o.start := by
  induction fuel generalizing i with
  | zero => exact fun o ho => absurd ho List.not_mem_nil
  | succ fuel ih =>
    by_cases hi : length ≤ i
    · rw [scanFrom_done _ hi]
      exact fun o ho => absurd ho List.not_mem_nil
    · cases htest : test i with
      | none =>
        rw [scanFrom_missed fuel (by omega) htest]
        intro o ho
        have := ih (i + 1) o ho
        omega
      | some found =>
        obtain ⟨stop, value⟩ := found
        have hstop := hforward i stop value htest
        rw [scanFrom_passed fuel (by omega) htest]
        intro o ho
        rcases List.mem_cons.mp ho with rfl | ho
        · exact Nat.le_refl i
        · have := ih stop o ho
          omega

theorem reached_done {i j : ℕ} (hforward : Forward test length) (h : Reached test i j) : i ≤ j := by
  induction h with
  | here => exact Nat.le_refl _
  | missed _ _ ih => omega
  | passed hfound _ ih =>
    have := hforward _ _ _ hfound
    omega

end Steps

section Compare

variable {first second : ℕ → Option (ℕ × μ)} {length : ℕ}

/-- Two scans agree when their tests agree at every position that is reached. -/
theorem scanFrom_eq_iff (hfirst : Forward first length) (hsecond : Forward second length)
    (fuel i : ℕ) (hfuel : length ≤ i + fuel) :
    scanFrom first length fuel i = scanFrom second length fuel i ↔
      ∀ j < length, Reached first i j → first j = second j := by
  induction fuel generalizing i with
  | zero =>
    refine iff_of_true rfl ?_
    intro j hj hreached
    have := reached_done hfirst hreached
    omega
  | succ fuel ih =>
    by_cases hi : length ≤ i
    · rw [scanFrom_done _ hi, scanFrom_done _ hi]
      refine iff_of_true rfl ?_
      intro j hj hreached
      have := reached_done hfirst hreached
      omega
    have hlt : i < length := by omega
    -- where the tests differ at the position itself, one of the scans starts elsewhere
    cases hf : first i with
    | none =>
      cases hs : second i with
      | none =>
        rw [scanFrom_missed fuel hlt hf, scanFrom_missed fuel hlt hs, ih (i + 1) (by omega)]
        constructor
        · intro h j hj hreached
          cases hreached with
          | here => rw [hf, hs]
          | missed _ hrest => exact h j hj hrest
          | passed hfound _ =>
            rw [hf] at hfound
            cases hfound
        · exact fun h j hj hreached => h j hj (Reached.missed hf hreached)
      | some found =>
        obtain ⟨stop, value⟩ := found
        rw [scanFrom_missed fuel hlt hf, scanFrom_passed fuel hlt hs]
        constructor
        · intro h
          have hmem : (⟨i, stop, value⟩ : Occurrence μ) ∈ scanFrom first length fuel (i + 1) :=
            h ▸ List.mem_cons_self
          have := scanFrom_start hfirst fuel (i + 1) _ hmem
          dsimp only at this
          omega
        · intro h
          have hsame := h i hlt (Reached.here i)
          rw [hf, hs] at hsame
          cases hsame
    | some found =>
      obtain ⟨stop, value⟩ := found
      have hstop := hfirst i stop value hf
      cases hs : second i with
      | none =>
        rw [scanFrom_passed fuel hlt hf, scanFrom_missed fuel hlt hs]
        constructor
        · intro h
          have hmem : (⟨i, stop, value⟩ : Occurrence μ) ∈ scanFrom second length fuel (i + 1) :=
            h ▸ List.mem_cons_self
          have := scanFrom_start hsecond fuel (i + 1) _ hmem
          dsimp only at this
          omega
        · intro h
          have hsame := h i hlt (Reached.here i)
          rw [hf, hs] at hsame
          cases hsame
      | some found' =>
        obtain ⟨stop', value'⟩ := found'
        rw [scanFrom_passed fuel hlt hf, scanFrom_passed fuel hlt hs, List.cons.injEq,
          Occurrence.mk.injEq]
        constructor
        · rintro ⟨⟨_, rfl, rfl⟩, hrest⟩ j hj hreached
          cases hreached with
          | here => rw [hf, hs]
          | missed hmiss _ =>
            rw [hf] at hmiss
            cases hmiss
          | passed hfound hreached =>
            rw [hf] at hfound
            cases hfound
            exact (ih stop (by omega)).mp hrest j hj hreached
        · intro h
          have hsame := h i hlt (Reached.here i)
          rw [hf, hs] at hsame
          cases hsame
          refine ⟨⟨rfl, rfl, rfl⟩, (ih stop (by omega)).mpr ?_⟩
          exact fun j hj hreached => h j hj (Reached.passed hf hreached)

/-- Two scans agree if and only if their tests agree wherever the first one tests. -/
theorem scan_eq_iff (hfirst : Forward first length) (hsecond : Forward second length) :
    scan first length = scan second length ↔
      ∀ j < length, Reached first 0 j → first j = second j :=
  scanFrom_eq_iff hfirst hsecond length 0 (by omega)

end Compare

section Values

def Occurrence.mapValue (f : μ → ν) (o : Occurrence μ) : Occurrence ν :=
  ⟨o.start, o.stop, f o.value⟩

def mapTest (f : μ → ν) (test : ℕ → Option (ℕ × μ)) (i : ℕ) : Option (ℕ × ν) :=
  (test i).map (Prod.map id f)

variable {test : ℕ → Option (ℕ × μ)} {length : ℕ} (f : μ → ν)

theorem mapTest_forward (h : Forward test length) : Forward (mapTest f test) length := by
  intro i stop value hfound
  obtain ⟨⟨stop', value'⟩, htest, hsame⟩ := Option.map_eq_some_iff.mp hfound
  obtain ⟨rfl, rfl⟩ := Prod.mk.inj hsame
  exact h i _ value' htest

theorem mapTest_reached {i j : ℕ} : Reached (mapTest f test) i j ↔ Reached test i j := by
  constructor
  · intro h
    induction h with
    | here i => exact Reached.here i
    | missed hmiss _ ih => exact Reached.missed (Option.map_eq_none_iff.mp hmiss) ih
    | passed hfound _ ih =>
      obtain ⟨⟨stop', value'⟩, htest, hsame⟩ := Option.map_eq_some_iff.mp hfound
      obtain ⟨rfl, rfl⟩ := Prod.mk.inj hsame
      exact Reached.passed htest ih
  · intro h
    induction h with
    | here i => exact Reached.here i
    | missed hmiss _ ih => exact Reached.missed (Option.map_eq_none_iff.mpr hmiss) ih
    | passed hfound _ ih => exact Reached.passed (Option.map_eq_some_iff.mpr ⟨_, hfound, rfl⟩) ih

/-- A scan for other values finds the same places. -/
theorem scan_mapTest : scan (mapTest f test) length = (scan test length).map (·.mapValue f) := by
  have hfrom : ∀ fuel i, scanFrom (mapTest f test) length fuel i =
      (scanFrom test length fuel i).map (·.mapValue f) := by
    intro fuel
    induction fuel with
    | zero => exact fun _ => rfl
    | succ fuel ih =>
      intro i
      by_cases hi : length ≤ i
      · rw [scanFrom_done _ hi, scanFrom_done _ hi]
        rfl
      · have hlt : i < length := by omega
        cases htest : test i with
        | none =>
          have hmapped : mapTest f test i = none := Option.map_eq_none_iff.mpr htest
          rw [scanFrom_missed fuel hlt hmapped, scanFrom_missed fuel hlt htest, ih]
        | some found =>
          obtain ⟨stop, value⟩ := found
          have hmapped : mapTest f test i = some (stop, f value) :=
            Option.map_eq_some_iff.mpr ⟨_, htest, rfl⟩
          rw [scanFrom_passed fuel hlt hmapped, scanFrom_passed fuel hlt htest, ih]
          rfl
  exact hfrom length 0

end Values

section Pieces

def slice (start stop : ℕ) (text : List α) : List α := (text.drop start).take (stop - start)

/-- What lies before, between and behind the occurrences. -/
def gaps (text : List α) : ℕ → List (Occurrence μ) → List (List α)
  | start, [] => [text.drop start]
  | start, o :: rest => slice start o.start text :: gaps text o.stop rest

def weave (text : List α) : ℕ → List (Occurrence μ) → List α
  | start, [] => text.drop start
  | start, o :: rest =>
    slice start o.start text ++ slice o.start o.stop text ++ weave text o.stop rest

/-- Occurrences from a position on, one behind the other. -/
def InOrder (length : ℕ) : ℕ → List (Occurrence μ) → Prop
  | start, [] => start ≤ length
  | start, o :: rest => start ≤ o.start ∧ o.start < o.stop ∧ InOrder length o.stop rest

theorem InOrder.mono {length : ℕ} {occurrences : List (Occurrence μ)} {i j : ℕ} (hij : i ≤ j)
    (h : InOrder length j occurrences) : InOrder length i occurrences := by
  cases occurrences with
  | nil =>
    show i ≤ length
    have : j ≤ length := h
    omega
  | cons o rest => exact ⟨Nat.le_trans hij h.1, h.2⟩

theorem scan_inOrder {test : ℕ → Option (ℕ × μ)} {length : ℕ} (hforward : Forward test length) :
    InOrder length 0 (scan test length) := by
  have hfrom : ∀ fuel i, i ≤ length → InOrder length i (scanFrom test length fuel i) := by
    intro fuel
    induction fuel with
    | zero => exact fun i hi => hi
    | succ fuel ih =>
      intro i hi
      by_cases hdone : length ≤ i
      · rw [scanFrom_done _ hdone]
        exact hi
      · have hlt : i < length := by omega
        cases htest : test i with
        | none =>
          rw [scanFrom_missed fuel hlt htest]
          exact (ih (i + 1) (by omega)).mono (by omega)
        | some found =>
          obtain ⟨stop, value⟩ := found
          have hstop := hforward i stop value htest
          rw [scanFrom_passed fuel hlt htest]
          exact ⟨Nat.le_refl i, hstop.1, ih stop hstop.2⟩
  exact hfrom length 0 (by omega)

theorem drop_slice {start stop : ℕ} (h : start ≤ stop) (text : List α) :
    slice start stop text ++ text.drop stop = text.drop start := by
  have hstop : text.drop stop = (text.drop start).drop (stop - start) := by
    rw [List.drop_drop]
    congr 1
    omega
  rw [hstop, slice, List.take_append_drop]

/-- Gaps and occurrences together are the text. -/
theorem weave_inOrder {text : List α} {occurrences : List (Occurrence μ)} {i : ℕ}
    (h : InOrder text.length i occurrences) : weave text i occurrences = text.drop i := by
  induction occurrences generalizing i with
  | nil => rfl
  | cons o rest ih =>
    obtain ⟨hstart, hstop, hrest⟩ := h
    rw [weave, ih hrest, List.append_assoc, drop_slice (by omega), drop_slice hstart]

end Pieces

end Prompta.Scanners
