import Prompta.ConnectorApproval

/-!
The Markdown of a rendered answer. The printer walks the page's tree: an inline printer
escapes the texts, a block printer prints headings, lists, tables, quotes and fenced code and
joins what it has printed. Addresses and the numbers of ordered lists are the browser's.
-/
namespace Prompta.DomMarkdown

open Texts ConnectorApproval

section Trimming

theorem trim_trim (t : Text) : trim (trim t) = trim t := dropEnds_dropEnds isWhitespace t

theorem trim_cons {c : Char} (hc : isWhitespace c = true) (t : Text) : trim (c :: t) = trim t := by
  unfold trim
  rw [List.dropWhile_cons_of_pos hc]

theorem trim_concat {c : Char} (hc : isWhitespace c = true) (t : Text) :
    trim (t ++ [c]) = trim t := by
  unfold trim
  rw [List.dropWhile_append]
  split
  · rename_i hblank
    rw [List.isEmpty_iff.mp hblank, List.dropWhile_cons_of_pos hc]
    rfl
  · rw [List.rdropWhile_concat_pos _ _ _ hc]

end Trimming

/-- What the printer reads of an element beside its tag and its children. -/
structure Attributes where
  hidden : Bool := false
  ariaHidden : Option String := none
  alt : Option Text := none
  href : Option Text := none
  start : Option Text := none
  className : Text := []

/-- A node of the page: `other` is neither a text nor an element. -/
inductive Node
  | text (value : Text)
  | element (tagName : String) (attributes : Attributes) (children : List Node)
  | other

structure Address where
  protocol : String
  href : Text

/-- The browser's share: `new URL(href, location.href)`, which may throw, and the text of
`(Number(start) || 1) + index`. -/
structure Browser where
  address : Text → Option Address
  ordinal : Option Text → ℕ → Text

def escapeBackslash (c : Char) : Text := if c = '\\' then ['\\', '\\'] else [c]

def isSpecial (c : Char) : Bool :=
  decide (c = '\x60') || decide (c = '*') || decide (c = '_') || decide (c = '[') ||
    decide (c = ']') || decide (c = '|')

def escapeSpecial (c : Char) : Text := if isSpecial c then ['\\', c] else [c]

def escape (value : Text) : Text := (value.flatMap escapeBackslash).flatMap escapeSpecial

/-- `value.replace(/\s+/g, " ")`; `gap` tells that the last character was white space. -/
def collapseFrom : Bool → Text → Text
  | _, [] => []
  | gap, c :: rest =>
    if isWhitespace c then
      if gap then collapseFrom true rest else ' ' :: collapseFrom true rest
    else c :: collapseFrom false rest

def collapse (value : Text) : Text := collapseFrom false value

def ignored : List String := ["SCRIPT", "STYLE", "BUTTON", "SVG", "NOSCRIPT"]

def blockTags : List String :=
  ["P", "DIV", "SECTION", "ARTICLE", "H1", "H2", "H3", "H4", "H5", "H6", "UL", "OL", "PRE",
    "BLOCKQUOTE", "TABLE", "HR"]

def allowedElement (tagName : String) (a : Attributes) : Bool :=
  !ignored.contains tagName && !a.hidden && decide (a.ariaHidden ≠ some "true")

def allowedNode : Node → Bool
  | .element tagName a _ => allowedElement tagName a
  | _ => true

def isBlock : Node → Bool
  | .element tagName _ _ => blockTags.contains tagName
  | _ => false

def hasTag (tagName : String) : Node → Bool
  | .element name _ _ => decide (name = tagName)
  | _ => false

/-- The lengths of the runs of backticks; `count` is that of the run being read. -/
def tickRuns : ℕ → Text → List ℕ
  | count, [] => if count = 0 then [] else [count]
  | count, c :: rest =>
    if c = '\x60' then tickRuns (count + 1) rest
    else (if count = 0 then [] else [count]) ++ tickRuns 0 rest

def fenceLength (value : Text) (minimum : ℕ) : ℕ :=
  (tickRuns 0 value).foldl (fun most run => max most (run + 1)) minimum

def fenceFor (value : Text) (minimum : ℕ) : Text :=
  List.replicate (fenceLength value minimum) '\x60'

theorem foldl_runs (runs : List ℕ) (minimum : ℕ) :
    minimum ≤ runs.foldl (fun most run => max most (run + 1)) minimum ∧
      ∀ run ∈ runs, run < runs.foldl (fun most run => max most (run + 1)) minimum := by
  induction runs generalizing minimum with
  | nil => exact ⟨le_refl _, fun run hrun => absurd hrun List.not_mem_nil⟩
  | cons first rest ih =>
    obtain ⟨hmin, hrest⟩ := ih (max minimum (first + 1))
    refine ⟨le_trans (le_max_left _ _) hmin, fun run hrun => ?_⟩
    rcases List.mem_cons.mp hrun with rfl | hrun
    · exact le_trans (le_max_right _ _) hmin
    · exact hrest run hrun

theorem fenceLength_min (value : Text) (minimum : ℕ) : minimum ≤ fenceLength value minimum :=
  (foldl_runs _ _).1

theorem run_lt_fenceLength {value : Text} {run : ℕ} (h : run ∈ tickRuns 0 value) (minimum : ℕ) :
    run < fenceLength value minimum := (foldl_runs _ _).2 run h

mutual

def textContent : Node → Text
  | .text value => value
  | .element _ _ children => textContents children
  | .other => []

def textContents : List Node → Text
  | [] => []
  | child :: rest => textContent child ++ textContents rest

end

def codeSpan (value : Text) : Text :=
  let fence := fenceFor value 1
  let pad : Text := if value.head? = some '\x60' || value.getLast? = some '\x60' then [' '] else []
  fence ++ pad ++ value ++ pad ++ fence

def encodeParens (href : Text) : Text :=
  href.flatMap fun c => if c = '(' then "%28".toList else if c = ')' then "%29".toList else [c]

/-- The address of a link that is printed as one. -/
def linkTarget (b : Browser) (a : Attributes) : Option Text :=
  match b.address (a.href.getD []) with
  | some url =>
    if url.protocol = "https:" ∨ url.protocol = "http:" then some (encodeParens url.href) else none
  | none => none

/-- The content of an inline element inside of its marks. -/
def marked (b : Browser) (name : String) (a : Attributes) (content : Text) : Text :=
  if name = "strong" ∨ name = "b" then "**".toList ++ trim content ++ "**".toList
  else if name = "em" ∨ name = "i" then "*".toList ++ trim content ++ "*".toList
  else if name = "del" ∨ name = "s" then "~~".toList ++ trim content ++ "~~".toList
  else if name = "a" then
    match linkTarget b a with
    | some target => "[".toList ++ trim content ++ "](".toList ++ target ++ ")".toList
    | none => content
  else content

mutual

def inlineText (b : Browser) : Node → Text
  | .text value => escape (collapse value)
  | .other => []
  | .element tagName a children =>
    if allowedElement tagName a then
      if lower tagName = "br" then ['\n']
      else if lower tagName = "img" then escape (a.alt.getD [])
      else if lower tagName = "code" then codeSpan (textContents children)
      else marked b (lower tagName) a (inlineTexts b children)
    else []

def inlineTexts (b : Browser) : List Node → Text
  | [] => []
  | child :: rest => inlineText b child ++ inlineTexts b rest

end

mutual

/-- `querySelectorAll("*")`: the nodes below a node, in document order. -/
def below : Node → List Node
  | .element _ _ children => belowAll children
  | _ => []

def belowAll : List Node → List Node
  | [] => []
  | child :: rest => child :: (below child ++ belowAll rest)

end

def namedElement (name : String) : Node → Bool
  | .element tagName _ _ => decide (lower tagName = name)
  | _ => false

def childrenOf : Node → List Node
  | .element _ _ children => children
  | _ => []

def isCell (node : Node) : Bool := hasTag "TD" node || hasTag "TH" node

def cellText (b : Browser) (cell : Node) : Text :=
  trim ((inlineText b cell).map fun c => if c = '\n' then ' ' else c)

/-- The cells of the rows of a table, without the rows that have none. -/
def tableRows (b : Browser) (element : Node) : List (List Text) :=
  (((below element).filter (namedElement "tr")).map fun tr =>
    ((childrenOf tr).filter isCell).map (cellText b)).filter fun cells => decide (cells ≠ [])

def columnsOf (rows : List (List Text)) : ℕ := (rows.map List.length).foldl max 0

def formatRow (columns : ℕ) (cells : List Text) : Text :=
  "| ".toList ++
    List.intercalate " | ".toList ((List.range columns).map fun i => (cells[i]?).getD []) ++
    " |".toList

def table (b : Browser) (element : Node) : Text :=
  let rows := tableRows b element
  let columns := columnsOf rows
  match rows with
  | [] => []
  | first :: rest =>
    List.intercalate ['\n'] (formatRow columns first ::
      formatRow columns (List.replicate columns "---".toList) :: rest.map (formatRow columns))

/-- `value.replace(/\n+$/, "")` -/
def withoutLastBreaks (value : Text) : Text := value.rdropWhile fun c => decide (c = '\n')

def isLanguageChar (c : Char) : Bool :=
  ('a' ≤ c && c ≤ 'z') || ('A' ≤ c && c ≤ 'Z') || isDigit c || decide (c = '_') ||
    decide (c = '+') || decide (c = '#') || decide (c = '.') || decide (c = '-')

/-- `className.match(/(?:^|\s)language-([\w+#.-]+)/)?.[1]`; `opens` tells that a word may
begin here. -/
def languageFrom : Bool → Text → Text
  | _, [] => []
  | opens, c :: rest =>
    let name := ((c :: rest).drop "language-".length).takeWhile isLanguageChar
    if opens && "language-".toList.isPrefixOf (c :: rest) && decide (name ≠ []) then name
    else languageFrom (isWhitespace c) rest

/-- The code and the language of a `PRE` element. -/
def codeText (node : Node) : Text :=
  match (below node).find? (namedElement "code") with
  | some code => textContent code
  | none => textContent node

def codeLanguage (node : Node) : Text :=
  match (below node).find? (namedElement "code") with
  | some (.element _ a _) => languageFrom true a.className
  | _ => []

def fencedCode (node : Node) : Text :=
  let value := codeText node
  let fence := fenceFor value 3
  fence ++ codeLanguage node ++ ['\n'] ++ withoutLastBreaks value ++ ['\n'] ++ fence

/-- The sections of a block: what was gathered inline is one, when it is not blank. -/
def flush (current : Text) : List Text := if trim current = [] then [] else [trim current]

def solid (value : Text) : List Text := if value = [] then [] else [value]

def quoteLine (line : Text) : Text := if line = [] then ['>'] else "> ".toList ++ line

def quoted (value : Text) : Text :=
  List.intercalate ['\n'] ((value.splitOn '\n').map quoteLine)

/-- `text.replace(/\n\n/g, "\n  ")` -/
def indentBreaks : Text → Text
  | '\n' :: '\n' :: rest => '\n' :: ' ' :: ' ' :: indentBreaks rest
  | c :: rest => c :: indentBreaks rest
  | [] => []

def indented (value : Text) : Text :=
  List.intercalate ['\n'] ((value.splitOn '\n').map fun line => "  ".toList ++ line)

def listItem (marker : Text) (text nested : List Text) : Text :=
  marker ++ indentBreaks (trim (List.intercalate [' '] text)) ++
    if nested = [] then [] else '\n' :: indented (List.intercalate ['\n'] nested)

def headingLevel (name : String) : Option ℕ :=
  match name.toList with
  | ['h', d] => if '1' ≤ d && d ≤ '6' then some (d.toNat - '0'.toNat) else none
  | _ => none

def isList (node : Node) : Bool := hasTag "UL" node || hasTag "OL" node

def joinItems (items : List Text) : Text := List.intercalate ['\n'] items

def marker (b : Browser) (ordered : Bool) (start : Option Text) (index : ℕ) : Text :=
  if ordered then b.ordinal start index ++ ". ".toList else "- ".toList

mutual

def block (b : Browser) : Node → Text
  | .text value => trim (inlineText b (.text value))
  | .other => trim (inlineText b .other)
  | .element tagName a children =>
    if allowedElement tagName a then
      match headingLevel (lower tagName) with
      | some level =>
        List.replicate level '#' ++ [' '] ++ trim (inlineText b (.element tagName a children))
      | none =>
        if lower tagName = "p" then trim (inlineText b (.element tagName a children))
        else if lower tagName = "ul" ∨ lower tagName = "ol" then
          joinItems (items b (decide (tagName = "OL")) a.start 0 children)
        else if lower tagName = "table" then table b (.element tagName a children)
        else if lower tagName = "hr" then "---".toList
        else if lower tagName = "pre" then fencedCode (.element tagName a children)
        else if lower tagName = "blockquote" then
          quoted (List.intercalate "\n\n".toList (sections b [] children))
        else List.intercalate "\n\n".toList (sections b [] children)
    else []

/-- The loop of `groupedChildren`; `current` is what was gathered inline. -/
def sections (b : Browser) (current : Text) : List Node → List Text
  | [] => flush current
  | child :: rest =>
    if !allowedNode child then sections b current rest
    else if isBlock child then flush current ++ solid (block b child) ++ sections b [] rest
    else sections b (current ++ inlineText b child) rest

/-- The items of a list, from the index of the first. -/
def items (b : Browser) (ordered : Bool) (start : Option Text) (index : ℕ) :
    List Node → List Text
  | [] => []
  | .element tagName _ children :: rest =>
    if tagName = "LI" then
      listItem (marker b ordered start index) (itemTexts b children) (itemLists b children) ::
        items b ordered start (index + 1) rest
    else items b ordered start index rest
  | _ :: rest => items b ordered start index rest

def itemTexts (b : Browser) : List Node → List Text
  | [] => []
  | child :: rest =>
    if isList child then itemTexts b rest
    else if isBlock child then block b child :: itemTexts b rest
    else inlineText b child :: itemTexts b rest

def itemLists (b : Browser) : List Node → List Text
  | [] => []
  | .element tagName a children :: rest =>
    if tagName = "UL" ∨ tagName = "OL" then
      joinItems (items b (decide (tagName = "OL")) a.start 0 children) :: itemLists b rest
    else itemLists b rest
  | _ :: rest => itemLists b rest

end

def markdownFromRoot (b : Browser) (root : Node) : Text := trim (block b root)

end Prompta.DomMarkdown
