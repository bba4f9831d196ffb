import Prompta.JsonValues
import Prompta.ToolCalls

/-!
Tool calls as they are read off a stream of messages. An invocation is displayed with its
arguments, a result is paired with a pending invocation, and no message that only holds
thoughts changes the collector.
-/
namespace Prompta.ToolEvents

open Texts DisplayBlocks ToolCalls JsonValues

def maxTools : ℕ := 128

/-- How a letter is compared when case is ignored. -/
def foldCase (c : Char) : Char :=
  match c.toNat with
  | 0x212a => 'k'
  | 0x17f => 's'
  | 0x130 => 'i'
  | 0x131 => 'i'
  | _ => c.toLower

/-- The start of a text matches a word. A question mark stands for at most one code point
that is no line break. -/
def matchesWord : List Char → Text → Bool
  | [], _ => true
  | '?' :: word, [] => matchesWord word []
  | '?' :: word, c :: rest =>
    matchesWord word (c :: rest) || (decide (c ≠ '\n') && matchesWord word rest)
  | _ :: _, [] => false
  | w :: word, c :: rest => decide (foldCase c = w) && matchesWord word rest

def privateWords : List String :=
  ["token", "secret", "password", "cookie", "authorization", "api?key", "credential", "session?key"]

/-- `_PRIVATE_KEYS.search` -/
def isPrivateKey (key : Text) : Bool :=
  key.tails.any fun rest => privateWords.any fun word => matchesWord word.toList rest

/-- `_redact`, with the levels that are left of the eight. -/
def redact : ℕ → Json → Json
  | 0, _ => .str "[nested value omitted]".toList
  | levels + 1, .obj fields =>
    .obj (fields.map fun field =>
      (field.1, if isPrivateKey field.1 then .str "[redacted]".toList else redact levels field.2))
  | levels + 1, .arr items => .arr ((items.take 64).map (redact levels))
  | _ + 1, value => value

/-- A text that opens an object, or an array of objects, arrays or texts. -/
def isPending (t : Text) : Bool :=
  match t.dropWhile isSpace with
  | '{' :: _ => true
  | '[' :: rest =>
    match rest.dropWhile isSpace with
    | [] => true
    | c :: _ => decide (c = '[' ∨ c = '{' ∨ c = '"')
  | _ => false

section Display

variable (codec : Codec)

def decode : Json → Json
  | .str t => (codec.loads t).getD (.str t)
  | value => value

def truncated (limit : ℕ) (t : Text) : Text :=
  if t.length ≤ limit then t else t.take limit ++ "\n… (truncated)".toList

def displayDecoded (limit : ℕ) : Json → Text
  | .str t => if isPending t then "[structured payload pending]".toList else truncated limit t
  | value => truncated limit (codec.dumps (redact 8 value))

def display (limit : ℕ) (value : Json) : Text :=
  match value with
  | .null => []
  | .str [] => []
  | value => displayDecoded codec limit (decode codec value)

end Display

def nameFromPath (value : Json) : Text :=
  lastSegment '/' (value.text.rdropWhile fun c => decide (c = '/'))

def resourceKey (value : Json) : Text :=
  let path := stripChar '/' value.text
  match (path.splitOn '/').reverse with
  | last :: link :: _ => if "link_".toList.isPrefixOf link then link ++ '/' :: last else path
  | _ => path

def connectorLabels : List (String × String) :=
  [("glass", "Glass"), ("glass_execute_python", "Glass"), ("glass_serena", "Glass Serena"),
    ("nox", "Nox"), ("nox_python_mcp", "Nox Python MCP"), ("nox_serena", "Nox Serena"),
    ("pi", "Pi"),
    ("pi_python_mcp", "Pi Python MCP"), ("patchright_brave", "Patchright Brave")]

def connectorName (lib : Stdlib) (value : Text) : Text :=
  let name := removeStem "mcp__codex_apps__" (stripChar '/' (strip value))
  let folded := lib.casefold name
  if name = [] ∨ folded ∈ ["assistant", "tool", "api_tool", "call_tool"].map String.toList then []
  else if ["asdk_app_", "plugin_", "link_", "connector_"].any fun stem =>
    stem.toList.isPrefixOf name then
    []
  else
    match connectorLabels.find? fun label => decide (label.1.toList = folded) with
    | some label => label.2.toList
    | none => name

/-- The first name of a connector that is not the name of the action. -/
def firstConnector (lib : Stdlib) (action : Text) (candidates : List Text) : Text :=
  ((candidates.map (connectorName lib)).find? fun name =>
    decide (name ≠ [] ∧ name ≠ action)).getD []

def isRunStatus (t : Text) : Bool :=
  decide (t ∈ ["running", "completed", "error", "observed"].map String.toList)

def isFinished (t : Text) : Bool := decide (t = "completed".toList ∨ t = "error".toList)

structure ToolEventCollector where
  calls : List ToolCall := []
  pending : List Text := []
  results : List (Text × Text) := []
  recipients : List (Text × Text) := []
  resources : List (Text × Text) := []

def findCall (calls : List ToolCall) (id : Text) : Option ToolCall :=
  calls.find? fun call => decide (call.id = id)

/-- The calls are kept by their identifiers, in the order of their first appearance. -/
def putCall (calls : List ToolCall) (entry : ToolCall) : List ToolCall :=
  if (findCall calls entry.id).isSome then
    calls.map fun call => if call.id = entry.id then entry else call
  else calls ++ [entry]

/-- The first content part, or the text of the content. -/
def firstPart (content : Fields) : Json :=
  let first := match content.get "parts" with
    | .arr (part :: _) => part
    | _ => content.get "text"
  if (first.record.get "type").among ["text"] then first.record.get "text" else first

/-- The JSON object of an envelope, which may be nested in the field `text` of another. -/
def parseEnvelope (codec : Codec) (first : Json) : Fields :=
  let parsed := (decode codec first).record
  if parsed ≠ [] ∧ ∀ field ∈ parsed, field.1 = "text".toList then
    let nested := (decode codec (parsed.get "text")).record
    if nested.isEmpty then parsed else nested
  else parsed

/-- What `observe` reads off a message of the assistant. -/
structure Invocation where
  recipient : Text
  content : Fields
  first : Json
  parsed : Fields
  app : Fields
  action : Text

def readInvocation (codec : Codec) (message : Fields) : Invocation :=
  let recipient := (message.get "recipient").text
  let content := (message.get "content").record
  let first := firstPart content
  let parsed := parseEnvelope codec first
  let app := (parsed.get "appContext").record
  { recipient, content, first, parsed, app
    action :=
      orText (app.get "actionName").text <| orText (nameFromPath (parsed.get "path")) <|
        orText (lastSegment '.' (parsed.get "tool").text) (lastSegment '.' recipient) }

/-- The envelope itself says that it is a call. -/
def Invocation.isEnvelope (i : Invocation) : Bool :=
  (i.parsed.get "type").among ["mcpToolCall"] || !i.app.isEmpty

def Invocation.toAll (i : Invocation) : Bool :=
  decide (i.recipient = [] ∨ i.recipient = "all".toList)

def Invocation.isCall (i : Invocation) : Bool :=
  i.isEnvelope ||
    (decide (i.recipient = "api_tool.call_tool".toList) && (i.parsed.get "path").truthy) ||
    (i.parsed.has "arguments" && decide (i.action ≠ [])) ||
    (!i.toAll && i.first.isStr && (i.content.get "content_type").among ["text", "code"])

section Collector

variable (lib : Stdlib) (codec : Codec) (now : Stamp)

def invocationConnector (message : Fields) (i : Invocation) : Text :=
  let toolName := (i.parsed.get "tool").text
  let suffix := '_' :: i.action
  let toolNamespace :=
    if "mcp__codex_apps__".toList.isPrefixOf toolName && suffix.isSuffixOf toolName then
      toolName.take (toolName.length - suffix.length)
    else firstSegment '.' toolName
  let invoked := (message.get "invoked_resource").record
  let resourcePath := stripChar '/' (invoked.get "resource_uri").text
  let pathNamespace := firstSegment '/' (stripChar '/' (i.parsed.get "path").text)
  let connector := firstConnector lib i.action
    [(i.app.get "appName").text, (i.app.get "displayName").text, (i.app.get "name").text,
      (invoked.get "app_name").text, (invoked.get "display_name").text,
      ((message.get "metadata").record.get "app_name").text, toolNamespace, pathNamespace,
      firstSegment '/' resourcePath, ((message.get "author").record.get "name").text]
  if connector ≠ [] then connector
  else orText (connectorName lib (firstSegment '.' i.recipient)) "Tool".toList

/-- The status of an invocation. A replayed snapshot cannot reopen a finished tool. -/
def invocationStatus (i : Invocation) (existing : Option ToolCall) : Text :=
  let written := orText (i.parsed.get "status").text "running".toList
  let known := if isRunStatus written then written else "running".toList
  let status :=
    if !(i.parsed.get "result").isNull && decide (known = "running".toList) then "completed".toList
    else known
  match existing with
  | some call =>
    if isFinished call.status && decide (status = "running".toList) then call.status else status
  | none => status

/-- `parsed.get("arguments", parsed.get("args", parsed or first))` -/
def invocationArguments (i : Invocation) : Json :=
  i.parsed.getOr "arguments" (i.parsed.getOr "args"
    (if i.parsed.isEmpty then i.first else .obj i.parsed))

def observeCall (s : ToolEventCollector) (message : Fields) (i : Invocation) : ToolEventCollector :=
  let identifier :=
    orText (message.get "id").text ("tool-".toList ++ (toString s.calls.length).toList)
  let existing := findCall s.calls identifier
  if existing = none ∧ maxTools ≤ s.calls.length then s
  else
    let status := invocationStatus i existing
    let shown : ToolCall :=
      { observedAt := (existing.map ToolCall.observedAt).getD (some now)
        id := identifier
        connector := (invocationConnector lib message i).take 100
        action := i.action.take 120
        status := status.take 30
        arguments := display codec 6000 (invocationArguments i)
        result := display codec 6000 (i.parsed.get "result")
        error := display codec 2000 (i.parsed.get "error") }
    let entry := match existing with
      | some call =>
        { shown with arguments := orText shown.arguments call.arguments
                     result := orText shown.result call.result
                     error := orText shown.error call.error }
      | none => shown
    let resource := resourceKey (i.parsed.get "path")
    { s with
      calls := putCall s.calls entry
      recipients := assign s.recipients identifier i.recipient
      resources := if resource = [] then s.resources else assign s.resources identifier resource
      pending :=
        if status = "running".toList then
          if identifier ∈ s.pending then s.pending else s.pending ++ [identifier]
        else s.pending.erase identifier }

def resultCall (s : ToolEventCollector) (message : Fields) : Option Text :=
  let resultId := (message.get "id").text
  let known := if resultId = [] then none else lookup s.results resultId
  let invoked := (message.get "invoked_resource").record
  let authorName := ((message.get "author").record.get "name").text
  let target := ((message.get "metadata").record.get "tool_call_id").text
  let targeted := findCall s.calls target
  let action := match targeted with
    | some call => call.action
    | none => lastSegment '.' (orText (nameFromPath (invoked.get "resource_uri")) authorName)
  let resource := resourceKey (invoked.get "resource_uri")
  let sameResource := s.pending.filter fun key =>
    decide (resource ≠ [] ∧ lookup s.resources key = some resource)
  let matching := s.pending.filter fun key =>
    decide (action = [] ∨ (findCall s.calls key).map ToolCall.action = some action ∨
      (authorName ≠ [] ∧ (lookup s.recipients key = some authorName ∨
        firstSegment '.' ((lookup s.recipients key).getD []) = authorName)))
  match known with
  | some key => some key
  | none =>
    if targeted.isSome then some target
    else
      match sameResource with
      | [key] => some key
      | _ =>
        match matching with
        | [key] =>
          let saved := (lookup s.resources key).getD []
          if resource = [] ∨ saved = [] ∨ saved = resource then some key else none
        | _ => none

/-- The connector that a result names, where the call has only an opaque one. -/
def resultConnector (message : Fields) (action : Text) (entry : ToolCall) : Text :=
  if connectorName lib entry.connector ≠ [] then entry.connector
  else
    let invoked := (message.get "invoked_resource").record
    let connector := firstConnector lib action
      [(invoked.get "app_name").text, (invoked.get "display_name").text,
        ((message.get "metadata").record.get "app_name").text,
        firstSegment '/' (stripChar '/' (invoked.get "resource_uri").text)]
    if connector = [] then entry.connector else connector.take 100

/-- The action that a result names: that of the call it is for, where it names one. -/
def resultAction (s : ToolEventCollector) (message : Fields) : Text :=
  match findCall s.calls ((message.get "metadata").record.get "tool_call_id").text with
  | some call => call.action
  | none =>
    lastSegment '.' (orText
      (nameFromPath ((message.get "invoked_resource").record.get "resource_uri"))
      ((message.get "author").record.get "name").text)

def observeResult (s : ToolEventCollector) (message : Fields) : ToolEventCollector :=
  match resultCall s message with
  | none => s
  | some key =>
    let resultId := (message.get "id").text
    let results :=
      if resultId ≠ [] ∧ s.results.length < maxTools then assign s.results resultId key
        else s.results
    match findCall s.calls key with
    | none => { s with results }
    | some entry =>
      let shown := firstPart (message.get "content").record
      let failed := ((message.get "metadata").record.get "is_error").isTrue
      { s with
        results
        calls := putCall s.calls
          { entry with
            connector := resultConnector lib message (resultAction s message) entry
            result := display codec 6000 shown
            status := if failed then "error".toList else "completed".toList }
        pending := s.pending.erase key }

/-- `ToolEventCollector.observe`: whether the message is a tool's, and the collector after it. -/
def observe (s : ToolEventCollector) (message : Fields) : ToolEventCollector × Bool :=
  let role := ((message.get "author").record.get "role").text
  if ((message.get "metadata").record.get "is_visually_hidden_from_conversation").isTrue
    then (s, false)
  else if role = "tool".toList then (observeResult lib codec s message, true)
  else if role ≠ "assistant".toList then (s, false)
  else
    let i := readInvocation codec message
    if !i.isCall || decide (i.action = []) || (i.toAll && !i.isEnvelope) then (s, false)
    else (observeCall lib codec now s message i, true)

end Collector

end Prompta.ToolEvents
