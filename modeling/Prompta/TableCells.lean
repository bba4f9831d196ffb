import Prompta.DomMarkdown
import Prompta.EscapedSplits

/-!
The cells of a printed table. A row is read back by splitting its line at the pipes that no
backslash escapes. The texts of a cell are escaped; the code of its code spans and the
addresses of its links are printed as they are, and a bare pipe in one of them is one more
border of the row.
-/
namespace Prompta.TableCells

open Texts ConnectorApproval DomMarkdown EscapedSplits

def barePipes (t : Text) : ℕ := bare '\\' '|' false t

/-- Nothing behind the text is escaped by it. -/
def Closed (t : Text) : Prop := escapedAfter '\\' false t = false

def Plain (c : Char) : Prop := Neutral '\\' '|' c

/-- The cells of a row: what stands between its pipes, without the outer ones. -/
def readCells (line : Text) : List Text :=
  (((pieces '\\' '|' false line).drop 1).dropLast).map trim

def padded (columns : ℕ) (cells : List Text) : List Text :=
  cells ++ List.replicate (columns - cells.length) []

/-- The rows that a reader of the table should find. -/
def shownRows (b : Browser) (element : Node) : List (List Text) :=
  match tableRows b element with
  | [] => []
  | first :: rest =>
    let columns := columnsOf (first :: rest)
    padded columns first :: List.replicate columns "---".toList :: rest.map (padded columns)

/-- Every line of the printed table is read as the cells of its row. -/
def CellsKept (b : Browser) (element : Node) : Prop :=
  tableRows b element ≠ [] →
    ((table b element).splitOn '\n').map readCells = shownRows b element

mutual

/-- The parts of a node that are printed without escapes: code and addresses of links. -/
def rawParts (b : Browser) : Node → List Text
  | .element tagName a children =>
    if allowedElement tagName a then
      if lower tagName = "br" ∨ lower tagName = "img" then []
      else if lower tagName = "code" then [textContents children]
      else rawPartsAll b children ++ if lower tagName = "a" then (linkTarget b a).toList else []
    else []
  | _ => []

def rawPartsAll (b : Browser) : List Node → List Text
  | [] => []
  | child :: rest => rawParts b child ++ rawPartsAll b rest

end

section Pieces

theorem plain_of {c : Char} (hescape : c ≠ '\\') (hpipe : c ≠ '|') : Plain c := ⟨hescape, hpipe⟩

theorem blank_plain {c : Char} (h : isWhitespace c = true) : Plain c := by
  refine plain_of ?_ ?_
  · rintro rfl
    exact absurd h (by decide)
  · rintro rfl
    exact absurd h (by decide)

theorem barePipes_append {s : Text} (h : Closed s) (t : Text) :
    barePipes (s ++ t) = barePipes s + barePipes t := by
  unfold barePipes
  rw [bare_append, h]

theorem closed_append {s t : Text} (hs : Closed s) (ht : Closed t) : Closed (s ++ t) := by
  unfold Closed
  rw [escapedAfter_append, hs, ht]

/-- Marks around a text add no pipe. -/
theorem barePipes_between {opening closing : Text} (hopening : ∀ d ∈ opening, Plain d)
    (hclosing : ∀ d ∈ closing, Plain d) (t : Text) :
    barePipes (opening ++ t ++ closing) = barePipes t := by
  have hclosed : Closed opening := escapedAfter_neutral fun d hd => (hopening d hd).1
  rw [List.append_assoc, barePipes_append hclosed]
  unfold barePipes
  rw [bare_neutral hopening, bare_append, bare_neutral hclosing]
  omega

theorem closed_marked (t : Text) {closing : Text} (hne : closing ≠ [])
    (hclosing : ∀ d ∈ closing, Plain d) : Closed (t ++ closing) := by
  obtain ⟨c, rest, rfl⟩ := List.exists_cons_of_ne_nil hne
  unfold Closed
  rw [escapedAfter_append]
  show escapedAfter '\\' (pending '\\' _ c) rest = false
  rw [pending_neutral (hclosing c List.mem_cons_self).1]
  exact escapedAfter_neutral fun d hd => (hclosing d (List.mem_cons_of_mem c hd)).1

theorem barePipes_dropBlanks (t : Text) : barePipes (t.dropWhile isWhitespace) = barePipes t := by
  induction t with
  | nil => rfl
  | cons c rest ih =>
    cases hblank : isWhitespace c
    · rw [List.dropWhile_cons_of_neg (by rw [hblank]; exact Bool.false_ne_true)]
    · rw [List.dropWhile_cons_of_pos hblank, ih]
      exact (bare_cons_neutral (blank_plain hblank) false rest).symm

theorem barePipes_dropLastBlanks (t : Text) :
    barePipes (t.rdropWhile isWhitespace) = barePipes t := by
  induction t using List.reverseRecOn with
  | nil => rfl
  | append_singleton t c ih =>
    cases hblank : isWhitespace c
    · rw [List.rdropWhile_concat_neg _ _ _ (by rw [hblank]; exact Bool.false_ne_true)]
    · rw [List.rdropWhile_concat_pos _ _ _ hblank, ih]
      unfold barePipes
      rw [bare_append, bare_cons_neutral (blank_plain hblank)]
      rfl

theorem barePipes_trim (t : Text) : barePipes (trim t) = barePipes t := by
  unfold trim
  rw [barePipes_dropLastBlanks, barePipes_dropBlanks]

/-- A break that becomes a blank changes no pipe. -/
theorem bare_blankBreaks (odd : Bool) (t : Text) :
    bare '\\' '|' odd (t.map fun c => if c = '\n' then ' ' else c) = bare '\\' '|' odd t := by
  induction t generalizing odd with
  | nil => rfl
  | cons c rest ih =>
    rw [List.map_cons]
    by_cases hbreak : c = '\n'
    · rw [if_pos hbreak, hbreak, bare_cons_neutral (plain_of (by decide) (by decide)), ih,
        bare_cons_neutral (plain_of (by decide) (by decide))]
    · rw [if_neg hbreak]
      show _ + bare '\\' '|' _ _ = _ + bare '\\' '|' _ _
      rw [ih]

theorem escape_single (c : Char) : barePipes (escape [c]) = 0 ∧ Closed (escape [c]) := by
  by_cases hescape : c = '\\'
  · rw [hescape]
    exact ⟨rfl, rfl⟩
  have hfirst : escape [c] = escapeSpecial c := by
    unfold escape escapeBackslash
    rw [List.flatMap_singleton, if_neg hescape, List.flatMap_singleton]
  rw [hfirst]
  unfold escapeSpecial
  cases hspecial : isSpecial c
  · have hpipe : c ≠ '|' := by
      rintro rfl
      exact absurd hspecial (by decide)
    refine ⟨bare_neutral ?_, escapedAfter_neutral ?_⟩
    · intro d hd
      rw [List.mem_singleton.mp hd]
      exact plain_of hescape hpipe
    · intro d hd
      rw [List.mem_singleton.mp hd]
      exact hescape
  · refine ⟨?_, pending_neutral hescape true⟩
    show 0 + ((if c = '|' ∧ true = false then 1 else 0) + 0) = 0
    rw [if_neg (fun h => Bool.false_ne_true h.2.symm)]

/-- An escaped text has no bare pipe and escapes nothing behind it. -/
theorem escape_closed (t : Text) : barePipes (escape t) = 0 ∧ Closed (escape t) := by
  induction t with
  | nil => exact ⟨rfl, rfl⟩
  | cons c rest ih =>
    have hcons : escape (c :: rest) = escape [c] ++ escape rest := by
      unfold escape
      rw [← List.singleton_append, List.flatMap_append, List.flatMap_append]
    obtain ⟨hbare, hclosed⟩ := escape_single c
    rw [hcons]
    exact ⟨by rw [barePipes_append hclosed, hbare, ih.1], closed_append hclosed ih.2⟩

end Pieces

section Printed

variable (b : Browser)

def pipesOf (parts : List Text) : ℕ := (parts.map barePipes).sum

theorem pipesOf_append (s t : List Text) : pipesOf (s ++ t) = pipesOf s + pipesOf t := by
  unfold pipesOf
  rw [List.map_append, List.sum_append]

theorem pipesOf_eq_zero (parts : List Text) : pipesOf parts = 0 ↔ ∀ p ∈ parts, barePipes p = 0 := by
  induction parts with
  | nil => exact ⟨fun _ p hp => absurd hp List.not_mem_nil, fun _ => rfl⟩
  | cons p rest ih =>
    have hcons : pipesOf (p :: rest) = barePipes p + pipesOf rest := by
      unfold pipesOf
      rw [List.map_cons, List.sum_cons]
    rw [hcons, Nat.add_eq_zero_iff, ih, List.forall_mem_cons]

theorem ticks_plain {n : ℕ} : ∀ c ∈ List.replicate n '\x60', Plain c := by
  intro c hc
  rw [List.eq_of_mem_replicate hc]
  exact plain_of (by decide) (by decide)

theorem plain_append {s t : Text} (hs : ∀ c ∈ s, Plain c) (ht : ∀ c ∈ t, Plain c) :
    ∀ c ∈ s ++ t, Plain c := by
  intro c hc
  rcases List.mem_append.mp hc with h | h
  · exact hs c h
  · exact ht c h

/-- A literal without backslashes and pipes. -/
theorem plain_literal {t : Text}
    (h : t.all (fun c => decide (c ≠ '\\') && decide (c ≠ '|')) = true) :
    ∀ c ∈ t, Plain c := by
  intro c hc
  have hchar := List.all_eq_true.mp h c hc
  rw [Bool.and_eq_true, decide_eq_true_eq, decide_eq_true_eq] at hchar
  exact hchar

/-- The code of a code span is printed between plain characters. -/
theorem codeSpan_pipes (value : Text) :
    barePipes (codeSpan value) = barePipes value ∧ Closed (codeSpan value) := by
  unfold codeSpan
  dsimp only
  generalize hpad : (if value.head? = some '\x60' || value.getLast? = some '\x60' then [' ']
    else []) = pad
  have hblank : ∀ c ∈ pad, Plain c := by
    rw [← hpad]
    split
    · exact plain_literal (by decide)
    · exact plain_literal (by decide)
  have hfence : ∀ c ∈ fenceFor value 1, Plain c := ticks_plain
  have hne : fenceFor value 1 ≠ [] := by
    apply List.ne_nil_of_length_pos
    unfold fenceFor
    rw [List.length_replicate]
    exact fenceLength_min value 1
  rw [List.append_assoc]
  constructor
  · exact barePipes_between (plain_append hfence hblank) (plain_append hblank hfence) value
  · exact closed_marked _ (fun h => hne (List.append_eq_nil_iff.mp h).2)
      (plain_append hblank hfence)

/-- Marks around a content add no pipe and close what it leaves open. -/
theorem content_pipes {opening closing content : Text}
    (hopening : opening.all (fun c => decide (c ≠ '\\') && decide (c ≠ '|')) = true)
    (hclosing : closing.all (fun c => decide (c ≠ '\\') && decide (c ≠ '|')) = true)
    (hne : closing ≠ []) :
    barePipes (opening ++ trim content ++ closing) = barePipes content ∧
      Closed (opening ++ trim content ++ closing) := by
  constructor
  · rw [barePipes_between (plain_literal hopening) (plain_literal hclosing), barePipes_trim]
  · exact closed_marked _ hne (plain_literal hclosing)

/-- A link has the pipes of its content and of its address. -/
theorem link_pipes (content target : Text) :
    barePipes ("[".toList ++ trim content ++ "](".toList ++ target ++ ")".toList) =
        barePipes content + barePipes target ∧
      Closed ("[".toList ++ trim content ++ "](".toList ++ target ++ ")".toList) := by
  obtain ⟨hbare, hclosed⟩ := @content_pipes "[".toList "](".toList content (by decide) (by decide)
    (by decide)
  have htarget : barePipes (target ++ ")".toList) = barePipes target := by
    rw [← List.nil_append target]
    exact barePipes_between (fun c hc => absurd hc List.not_mem_nil)
      (plain_literal (by decide)) target
  constructor
  · rw [List.append_assoc _ target, barePipes_append hclosed, hbare, htarget]
  · exact closed_marked _ (by decide) (plain_literal (by decide))

/-- An element within a cell has the pipes of its content, and a link those of its address. -/
theorem marked_pipes (name : String) (a : Attributes) {content : Text} (hcontent : Closed content) :
    barePipes (marked b name a content) = barePipes content +
        pipesOf (if name = "a" then (linkTarget b a).toList else []) ∧
      Closed (marked b name a content) := by
  by_cases hlink : name = "a"
  · rw [if_pos hlink, hlink]
    unfold marked
    cases linkTarget b a with
    | none => exact ⟨rfl, hcontent⟩
    | some target => exact link_pipes content target
  · rw [if_neg hlink]
    show barePipes (marked b name a content) = barePipes content ∧ _
    unfold marked
    split
    · exact content_pipes (by decide) (by decide) (by decide)
    · split
      · exact content_pipes (by decide) (by decide) (by decide)
      · split
        · exact content_pipes (by decide) (by decide) (by decide)
        · exact ⟨rfl, hcontent⟩

mutual

/-- The bare pipes of a printed node are those of its raw parts. -/
theorem inline_pipes : ∀ node : Node,
    barePipes (inlineText b node) = pipesOf (rawParts b node) ∧ Closed (inlineText b node)
  | .text value => by
    rw [inlineText, rawParts]
    · exact escape_closed _
    · intro _ _ _ h
      cases h
  | .other => by
    rw [inlineText, rawParts]
    · exact ⟨rfl, rfl⟩
    · intro _ _ _ h
      cases h
  | .element tagName a children => by
    obtain ⟨hbare, hclosed⟩ := inlines_pipes children
    rw [inlineText, rawParts]
    split
    · by_cases hbreak : lower tagName = "br"
      · rw [if_pos hbreak, if_pos (Or.inl hbreak)]
        exact ⟨rfl, rfl⟩
      · by_cases himage : lower tagName = "img"
        · rw [if_neg hbreak, if_pos himage, if_pos (Or.inr himage)]
          exact escape_closed _
        · rw [if_neg hbreak, if_neg himage, if_neg (not_or.mpr ⟨hbreak, himage⟩)]
          split
          · exact codeSpan_pipes _
          · rw [pipesOf_append, ← hbare]
            exact marked_pipes b _ a hclosed
    · exact ⟨rfl, rfl⟩

theorem inlines_pipes : ∀ nodes : List Node,
    barePipes (inlineTexts b nodes) = pipesOf (rawPartsAll b nodes) ∧ Closed (inlineTexts b nodes)
  | [] => by
    rw [inlineTexts, rawPartsAll]
    exact ⟨rfl, rfl⟩
  | child :: rest => by
    obtain ⟨hbare, hclosed⟩ := inline_pipes child
    obtain ⟨hrest, hend⟩ := inlines_pipes rest
    rw [inlineTexts, rawPartsAll, pipesOf_append, ← hbare, ← hrest]
    exact ⟨barePipes_append hclosed _, closed_append hclosed hend⟩

end

theorem cellText_pipes (cell : Node) : barePipes (cellText b cell) = pipesOf (rawParts b cell) := by
  unfold cellText
  rw [barePipes_trim, ← (inline_pipes b cell).1]
  exact bare_blankBreaks false _

end Printed

section Rows

def spaced (cell : Text) : Text := ' ' :: (cell ++ [' '])

/-- What stands between the pipes of a row. -/
def rowParts (cells : List Text) : List Text := [] :: (cells.map spaced ++ [[]])

def rowLine (cells : List Text) : Text :=
  "| ".toList ++ List.intercalate " | ".toList cells ++ " |".toList

theorem spaced_closed (cell : Text) : Closed (spaced cell) := by
  show Closed ((' ' :: cell) ++ [' '])
  exact closed_marked _ (by decide) (plain_literal (by decide))

theorem spaced_pipes (cell : Text) : barePipes (spaced cell) = barePipes cell := by
  show barePipes ([' '] ++ cell ++ [' ']) = _
  exact barePipes_between (plain_literal (by decide)) (plain_literal (by decide)) cell

theorem trim_spaced (cell : Text) : trim (spaced cell) = trim cell := by
  unfold spaced
  rw [trim_cons (by decide), trim_concat (by decide)]

theorem intercalate_spaced (c : Text) (rest : List Text) :
    List.intercalate ['|'] ((c :: rest).map spaced ++ [[]]) =
      ' ' :: (List.intercalate " | ".toList (c :: rest) ++ " |".toList) := by
  induction rest generalizing c with
  | nil =>
    show spaced c ++ (['|'] ++ []) = _
    rw [List.intercalate_singleton, List.append_nil]
    show ' ' :: (c ++ [' '] ++ ['|']) = ' ' :: (c ++ [' ', '|'])
    rw [List.append_assoc]
    rfl
  | cons d rest ih =>
    have htail := ih d
    rw [List.map_cons, List.cons_append] at htail ⊢
    rw [List.map_cons, List.cons_append, List.intercalate_cons_cons, htail,
      List.intercalate_cons_cons]
    unfold spaced
    simp only [List.cons_append, List.append_assoc]
    rfl

theorem rowLine_eq {cells : List Text} (hne : cells ≠ []) :
    rowLine cells = List.intercalate ['|'] (rowParts cells) := by
  obtain ⟨c, rest, rfl⟩ := List.exists_cons_of_ne_nil hne
  have hparts : List.intercalate ['|'] (rowParts (c :: rest)) =
      '|' :: List.intercalate ['|'] ((c :: rest).map spaced ++ [[]]) := by
    unfold rowParts
    rw [List.map_cons, List.cons_append, List.intercalate_cons_cons]
    rfl
  rw [hparts, intercalate_spaced]
  rfl

theorem rowParts_closed (cells : List Text) : ∀ p ∈ rowParts cells, Closed p := by
  intro p hp
  rcases List.mem_cons.mp hp with rfl | hp
  · rfl
  · rcases List.mem_append.mp hp with hp | hp
    · obtain ⟨cell, -, rfl⟩ := List.mem_map.mp hp
      exact spaced_closed cell
    · rw [List.mem_singleton.mp hp]
      rfl

theorem rowLine_pipes {cells : List Text} (hne : cells ≠ []) :
    barePipes (rowLine cells) = pipesOf cells + (cells.length + 1) := by
  have hmap : (cells.map spaced).map barePipes = cells.map barePipes := by
    rw [List.map_map]
    exact List.map_congr_left fun cell _ => spaced_pipes cell
  have hsum : ((rowParts cells).map barePipes).sum = pipesOf cells := by
    unfold rowParts pipesOf
    rw [List.map_cons, List.map_append, List.sum_cons, List.sum_append, hmap]
    show 0 + (_ + 0) = _
    omega
  rw [rowLine_eq hne]
  unfold barePipes at hsum ⊢
  rw [bare_intercalate (by decide) (rowParts_closed cells), hsum]
  show _ + ((cells.map spaced ++ [[]]).length + 1 - 1) = _
  rw [List.length_append, List.length_map]
  rfl

/-- A row is read as its cells exactly when no cell has a bare pipe. -/
theorem readCells_iff {cells : List Text} (hne : cells ≠ []) (htrim : ∀ c ∈ cells, trim c = c) :
    readCells (rowLine cells) = cells ↔ ∀ c ∈ cells, barePipes c = 0 := by
  constructor
  · intro hread
    have hlength := congrArg List.length hread
    unfold readCells at hlength
    rw [List.length_map, List.length_dropLast, List.length_drop, pieces_length] at hlength
    have hpipes := rowLine_pipes hne
    unfold barePipes at hpipes
    rw [hpipes] at hlength
    have hzero : pipesOf cells = 0 := by omega
    exact (pipesOf_eq_zero cells).mp hzero
  · intro hbare
    have hparts : ∀ p ∈ rowParts cells, barePipes p = 0 := by
      intro p hp
      rcases List.mem_cons.mp hp with rfl | hp
      · rfl
      · rcases List.mem_append.mp hp with hp | hp
        · obtain ⟨cell, hcell, rfl⟩ := List.mem_map.mp hp
          rw [spaced_pipes, hbare cell hcell]
        · rw [List.mem_singleton.mp hp]
          rfl
    have hpieces : pieces '\\' '|' false (List.intercalate ['|'] (rowParts cells)) =
        rowParts cells :=
      pieces_intercalate (by decide) (List.cons_ne_nil _ _) (rowParts_closed cells) hparts
    unfold readCells
    rw [rowLine_eq hne, hpieces]
    show ((cells.map spaced ++ [[]]).dropLast).map trim = cells
    rw [List.dropLast_concat, List.map_map]
    calc cells.map (trim ∘ spaced) = cells.map id :=
          List.map_congr_left fun c hc => (trim_spaced c).trans (htrim c hc)
      _ = cells := List.map_id cells

end Rows

section Tables

variable (b : Browser)

theorem le_foldl_max (lengths : List ℕ) (most : ℕ) :
    most ≤ lengths.foldl max most ∧ ∀ n ∈ lengths, n ≤ lengths.foldl max most := by
  induction lengths generalizing most with
  | nil => exact ⟨le_refl _, fun n hn => absurd hn List.not_mem_nil⟩
  | cons m rest ih =>
    obtain ⟨hfirst, hrest⟩ := ih (max most m)
    refine ⟨le_trans (le_max_left _ _) hfirst, fun n hn => ?_⟩
    rcases List.mem_cons.mp hn with rfl | hn
    · exact le_trans (le_max_right _ _) hfirst
    · exact hrest n hn

theorem length_le_columns {rows : List (List Text)} {cells : List Text} (h : cells ∈ rows) :
    cells.length ≤ columnsOf rows := (le_foldl_max _ 0).2 _ (List.mem_map_of_mem h)

theorem padded_length {columns : ℕ} {cells : List Text} (h : cells.length ≤ columns) :
    (padded columns cells).length = columns := by
  unfold padded
  rw [List.length_append, List.length_replicate]
  omega

theorem formatRow_eq {columns : ℕ} {cells : List Text} (h : cells.length ≤ columns) :
    formatRow columns cells = rowLine (padded columns cells) := by
  have hcells : ((List.range columns).map fun i => (cells[i]?).getD []) =
      cells ++ List.replicate (columns - cells.length) [] := by
    apply List.ext_getElem
    · rw [List.length_map, List.length_range]
      exact (padded_length h).symm
    · intro i hi hi'
      rw [List.getElem_map, List.getElem_range]
      by_cases hin : i < cells.length
      · rw [List.getElem_append_left hin, List.getElem?_eq_getElem hin]
        rfl
      · rw [List.getElem_append_right (by omega), List.getElem_replicate,
          List.getElem?_eq_none (by omega)]
        rfl
  unfold formatRow rowLine padded
  rw [hcells]

theorem formatRow_dashes (columns : ℕ) :
    formatRow columns (List.replicate columns "---".toList) =
      rowLine (List.replicate columns "---".toList) := by
  rw [formatRow_eq (by rw [List.length_replicate])]
  unfold padded
  rw [List.length_replicate, Nat.sub_self, List.replicate_zero, List.append_nil]

/-- What a cell of the printed table looks like. -/
def CellShape (c : Text) : Prop := trim c = c ∧ '\n' ∉ c

theorem cellText_shape (cell : Node) : CellShape (cellText b cell) := by
  refine ⟨trim_trim _, fun hbreak => ?_⟩
  have hinner := (List.dropWhile_suffix isWhitespace).subset
    ((List.rdropWhile_prefix isWhitespace _).subset hbreak)
  obtain ⟨c, -, hc⟩ := List.mem_map.mp hinner
  split at hc
  · exact absurd hc (by decide)
  · rename_i hne
    exact hne hc

theorem mem_tableRows {element : Node} {cells : List Text} (h : cells ∈ tableRows b element) :
    cells ≠ [] ∧ ∀ c ∈ cells, CellShape c := by
  obtain ⟨hmem, hne⟩ := List.mem_filter.mp h
  obtain ⟨tr, -, rfl⟩ := List.mem_map.mp hmem
  refine ⟨of_decide_eq_true hne, fun c hc => ?_⟩
  obtain ⟨cell, -, rfl⟩ := List.mem_map.mp hc
  exact cellText_shape b cell

theorem padded_shape {columns : ℕ} {cells : List Text} (hne : cells ≠ [])
    (h : ∀ c ∈ cells, CellShape c) :
    padded columns cells ≠ [] ∧ ∀ c ∈ padded columns cells, CellShape c := by
  refine ⟨fun hnil => hne (List.append_eq_nil_iff.mp hnil).1, fun c hc => ?_⟩
  rcases List.mem_append.mp hc with hc | hc
  · exact h c hc
  · rw [List.eq_of_mem_replicate hc]
    exact ⟨rfl, List.not_mem_nil⟩

variable {b}

theorem shownRows_shape {element : Node} {cells : List Text} (h : cells ∈ shownRows b element) :
    cells ≠ [] ∧ ∀ c ∈ cells, CellShape c := by
  have hrow := @mem_tableRows b element
  unfold shownRows at h
  cases hrows : tableRows b element with
  | nil =>
    rw [hrows] at h
    exact absurd h List.not_mem_nil
  | cons first rest =>
    rw [hrows] at h hrow
    obtain ⟨hfirst, hshape⟩ := hrow List.mem_cons_self
    rcases List.mem_cons.mp h with rfl | h
    · exact padded_shape hfirst hshape
    rcases List.mem_cons.mp h with rfl | h
    · have hwide : 0 < columnsOf (first :: rest) :=
        lt_of_lt_of_le (List.length_pos_of_ne_nil hfirst) (length_le_columns List.mem_cons_self)
      refine ⟨List.ne_nil_of_length_pos (by rw [List.length_replicate]; exact hwide),
        fun c hc => ?_⟩
      rw [List.eq_of_mem_replicate hc]
      exact ⟨by decide, by decide⟩
    · obtain ⟨row, hmem, rfl⟩ := List.mem_map.mp h
      obtain ⟨hne, hcells⟩ := hrow (List.mem_cons_of_mem first hmem)
      exact padded_shape hne hcells

/-- The table is the lines of the rows that a reader should find. -/
theorem table_eq {element : Node} (h : tableRows b element ≠ []) :
    table b element = List.intercalate ['\n'] ((shownRows b element).map rowLine) := by
  obtain ⟨first, rest, hrows⟩ := List.exists_cons_of_ne_nil h
  have hrest : rest.map (formatRow (columnsOf (first :: rest))) =
      (rest.map (padded (columnsOf (first :: rest)))).map rowLine := by
    rw [List.map_map]
    exact List.map_congr_left fun cells hcells =>
      formatRow_eq (length_le_columns (List.mem_cons_of_mem first hcells))
  unfold table shownRows
  rw [hrows]
  show List.intercalate ['\n'] (formatRow _ first :: formatRow _ _ :: rest.map _) = _
  rw [formatRow_eq (length_le_columns List.mem_cons_self), formatRow_dashes, hrest]
  rfl

theorem not_mem_intercalate {c : Char} {border : Text} {parts : List Text} (hborder : c ∉ border)
    (h : ∀ p ∈ parts, c ∉ p) : c ∉ List.intercalate border parts := by
  induction parts with
  | nil => exact List.not_mem_nil
  | cons p rest ih =>
    cases rest with
    | nil =>
      rw [List.intercalate_singleton]
      exact h p List.mem_cons_self
    | cons q rest =>
      rw [List.intercalate_cons_cons, List.mem_append, List.mem_append, not_or, not_or]
      exact ⟨⟨h p List.mem_cons_self, hborder⟩, ih fun r hr => h r (List.mem_cons_of_mem p hr)⟩

theorem rowLine_unbroken {cells : List Text} (h : ∀ c ∈ cells, CellShape c) :
    '\n' ∉ rowLine cells := by
  unfold rowLine
  rw [List.mem_append, List.mem_append, not_or, not_or]
  exact ⟨⟨by decide, not_mem_intercalate (by decide) fun c hc => (h c hc).2⟩, by decide⟩

/-- The printed table is read row by row. -/
theorem read_table {element : Node} (h : tableRows b element ≠ []) :
    ((table b element).splitOn '\n').map readCells =
      (shownRows b element).map fun cells => readCells (rowLine cells) := by
  have hne : (shownRows b element).map rowLine ≠ [] := by
    obtain ⟨first, rest, hrows⟩ := List.exists_cons_of_ne_nil h
    unfold shownRows
    rw [hrows]
    exact List.cons_ne_nil _ _
  have hunbroken : ∀ line ∈ (shownRows b element).map rowLine, '\n' ∉ line := by
    intro line hline
    obtain ⟨cells, hcells, rfl⟩ := List.mem_map.mp hline
    exact rowLine_unbroken (shownRows_shape hcells).2
  rw [table_eq h, List.splitOn_intercalate '\n' hunbroken hne, List.map_map]
  rfl

/-- The rows that a reader should find have the cells of the table and nothing else that
could hold a pipe. -/
theorem shownRows_pipes {element : Node} :
    (∀ cells ∈ shownRows b element, ∀ c ∈ cells, barePipes c = 0) ↔
      ∀ cells ∈ tableRows b element, ∀ c ∈ cells, barePipes c = 0 := by
  have hpadded : ∀ (columns : ℕ) (cells : List Text),
      (∀ c ∈ padded columns cells, barePipes c = 0) ↔ ∀ c ∈ cells, barePipes c = 0 := by
    intro columns cells
    unfold padded
    rw [List.forall_mem_append]
    refine and_iff_left fun c hc => ?_
    rw [List.eq_of_mem_replicate hc]
    rfl
  have hdashes : ∀ (columns : ℕ), ∀ c ∈ List.replicate columns "---".toList, barePipes c = 0 := by
    intro columns c hc
    rw [List.eq_of_mem_replicate hc]
    rfl
  unfold shownRows
  cases tableRows b element with
  | nil => exact Iff.rfl
  | cons first rest =>
    show (∀ cells ∈ padded _ first :: List.replicate _ _ :: rest.map _, _) ↔ _
    rw [List.forall_mem_cons, List.forall_mem_cons, List.forall_mem_cons, List.forall_mem_map,
      hpadded]
    refine and_congr_right fun _ => ?_
    rw [and_iff_right (hdashes _)]
    exact forall₂_congr fun cells _ => hpadded _ cells

/-- The cells have no bare pipe when the parts printed without escapes have none. -/
theorem tableRows_pipes {element : Node} :
    (∀ cells ∈ tableRows b element, ∀ c ∈ cells, barePipes c = 0) ↔
      ∀ tr ∈ (below element).filter (namedElement "tr"), ∀ cell ∈ (childrenOf tr).filter isCell,
        ∀ part ∈ rawParts b cell, barePipes part = 0 := by
  unfold tableRows
  constructor
  · intro h tr htr cell hcell
    have hrow : ((childrenOf tr).filter isCell).map (cellText b) ≠ [] := by
      intro hnil
      rw [List.map_eq_nil_iff.mp hnil] at hcell
      exact List.not_mem_nil hcell
    have hzero := h (((childrenOf tr).filter isCell).map (cellText b))
      (List.mem_filter.mpr ⟨List.mem_map_of_mem htr, decide_eq_true hrow⟩) _
      (List.mem_map_of_mem hcell)
    rw [cellText_pipes, pipesOf_eq_zero] at hzero
    exact hzero
  · intro h cells hcells c hc
    obtain ⟨tr, htr, rfl⟩ := List.mem_map.mp (List.mem_filter.mp hcells).1
    obtain ⟨cell, hcell, rfl⟩ := List.mem_map.mp hc
    rw [cellText_pipes, pipesOf_eq_zero]
    exact h tr htr cell hcell

/-- A table keeps its cells exactly when no code span and no address of a link in them has a
bare pipe. -/
theorem cells_kept_iff (b : Browser) (element : Node) :
    CellsKept b element ↔
      ∀ tr ∈ (below element).filter (namedElement "tr"), ∀ cell ∈ (childrenOf tr).filter isCell,
        ∀ part ∈ rawParts b cell, barePipes part = 0 := by
  rw [← tableRows_pipes, ← shownRows_pipes]
  unfold CellsKept
  by_cases hrows : tableRows b element = []
  · have hshown : shownRows b element = [] := by
      unfold shownRows
      rw [hrows]
    rw [hshown]
    exact iff_of_true (fun h => absurd hrows h) (fun cells hcells => absurd hcells List.not_mem_nil)
  · have hread : ((table b element).splitOn '\n').map readCells = shownRows b element ↔
        ∀ cells ∈ shownRows b element, readCells (rowLine cells) = cells := by
      rw [read_table hrows]
      constructor
      · intro h cells hcells
        exact List.map_inj_left.mp (h.trans (List.map_id _).symm) cells hcells
      · intro h
        exact (List.map_congr_left h).trans (List.map_id' _)
    rw [hread]
    constructor
    · intro h cells hcells
      obtain ⟨hne, hshape⟩ := shownRows_shape hcells
      exact (readCells_iff hne fun c hc => (hshape c hc).1).mp (h hrows cells hcells)
    · intro h _ cells hcells
      obtain ⟨hne, hshape⟩ := shownRows_shape hcells
      exact (readCells_iff hne fun c hc => (hshape c hc).1).mpr (h cells hcells)

end Tables

section Examples

def plainBrowser : Browser where
  address := fun _ => none
  ordinal := fun _ index => (toString (index + 1)).toList

def codeCell : Node :=
  .element "TD" {} [.element "CODE" {} [.text "a|b".toList]]

def codeTable : Node :=
  .element "TABLE" {} [.element "TBODY" {}
    [.element "TR" {} [codeCell, .element "TD" {} [.text "or".toList]]]]

/-- A pipe in a code span is one more border of the row. -/
theorem code_splits_cell : ¬∀ (b : Browser) (element : Node), CellsKept b element := by
  intro h
  have hread := h plainBrowser codeTable (by decide +kernel)
  exact absurd hread (by decide +kernel)

end Examples

end Prompta.TableCells
