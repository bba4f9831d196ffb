import Mathlib.Algebra.GroupWithZero.Nat
import Prompta.DisplayBlocks

/-!
Tool-call snapshots. Every producer of a tool call writes the same text fields,
so a call is a record of them, with the optional time at which it was first
seen. A stored list is bounded in entries and in serialized length; merging
goes by invocation identifier and never drops an earlier stream call for a later one.
-/
namespace Prompta.ToolCalls

open Texts DisplayBlocks

/-- A JSON number: its value and the digits it is written with. -/
structure Stamp where
  value : ℚ
  digits : Text
  deriving DecidableEq

structure ToolCall where
  observedAt : Option Stamp := none
  id : Text
  connector : Text := []
  action : Text := []
  status : Text := []
  arguments : Text := []
  result : Text := []
  error : Text := []
  deriving DecidableEq

def maxCalls : ℕ := 128

def maxSerialized : ℕ := 512000

/-- How `json.dumps(.., ensure_ascii=False)` writes one code point. -/
def escapedLength (c : Char) : ℕ :=
  if c = '"' || c = '\\' || c = '\n' || c = '\r' || c = '\t' || c = '\x08' || c = '\x0c' then 2
  else if c.toNat < 32 then 6
  else 1

def quotedLength (t : Text) : ℕ := 2 + (t.map escapedLength).sum

/-- The written length of `"name": value, `, with the separator or closing bracket. -/
def fieldLength (name : String) (value : Text) : ℕ :=
  quotedLength name.toList + 2 + quotedLength value + 2

def callLength (call : ToolCall) : ℕ :=
  let stamp := match call.observedAt with
    | some s => quotedLength "observed_at".toList + 2 + s.digits.length + 2
    | none => 0
  stamp + fieldLength "id" call.id + fieldLength "connector" call.connector +
    fieldLength "action" call.action + fieldLength "status" call.status +
    fieldLength "arguments" call.arguments + fieldLength "result" call.result +
    fieldLength "error" call.error

/-- `len(json.dumps(calls))`: brackets, the calls, and `, ` between them. -/
def dumpsLength (calls : List ToolCall) : ℕ :=
  2 + (calls.map callLength).sum + 2 * (calls.length - 1)

/-- The loop of `serialize_tool_calls`: stop at the first call that does not fit. -/
def selectCalls (selected : List ToolCall) : List ToolCall → List ToolCall
  | [] => selected
  | call :: rest =>
    if maxSerialized < dumpsLength (selected ++ [call]) then selected
    else selectCalls (selected ++ [call]) rest

def serializeToolCalls (calls : List ToolCall) : List ToolCall :=
  selectCalls [] (calls.take maxCalls)

def deserializeToolCalls (stored : List ToolCall) : List ToolCall := stored.take maxCalls

def isDomCall (call : ToolCall) : Bool := "dom-tool-".toList.isPrefixOf call.id

def removeStem (stem : String) (t : Text) : Text :=
  if stem.toList.isPrefixOf t then t.drop stem.toList.length else t

/-- Whether a visible activity label stands for a structured stream call. -/
def sameActivity (lib : Stdlib) (dom stream : ToolCall) : Bool :=
  let label := strip (removeStem "used " (lib.casefold dom.action))
  let names := [strip (lib.casefold stream.connector), strip (lib.casefold stream.action)]
  if label = "searched the web".toList || label = "searching the web".toList then
    names.any fun name => decide ("search".toList <:+: name) || decide (name = "web".toList)
  else if label = "ran code".toList || label = "running code".toList then
    names.any fun name => decide ("python".toList <:+: name) || decide (name = "code".toList)
  else decide (label = "tool activity".toList) || decide (label ∈ names)

def stamped (observedAt : Option Stamp) : Bool := observedAt.any fun s => decide (s.value ≠ 0)

/-- Replace a visible placeholder by the first stream call it stands for. -/
def upgradeCall (lib : Stdlib) (streamCalls : List ToolCall) (call : ToolCall) : ToolCall :=
  if isDomCall call then
    match streamCalls.find? (sameActivity lib call) with
    | some stream =>
      if stamped call.observedAt then { stream with observedAt := call.observedAt } else stream
    | none => call
  else call

def dedupe (calls : List ToolCall) : List ToolCall :=
  calls.foldl (fun kept call =>
    if call.id ∈ kept.map ToolCall.id then kept else kept ++ [call]) []

def orText (new old : Text) : Text := if new = [] then old else new

/-- A later snapshot of a call; a finished call is not reopened by a replay. -/
def refresh (old call : ToolCall) : ToolCall where
  observedAt := if stamped old.observedAt then old.observedAt else call.observedAt.or old.observedAt
  id := call.id
  connector := call.connector
  action := call.action
  status :=
    if (old.status = "completed".toList || old.status = "error".toList) &&
      call.status = "running".toList then old.status
    else call.status
  arguments := orText call.arguments old.arguments
  result := orText call.result old.result
  error := orText call.error old.error

def mergeCall (merged : List ToolCall) (call : ToolCall) : List ToolCall :=
  match merged.findIdx? fun old => decide (old.id = call.id) with
  | some index =>
    match merged[index]? with
    | some old => merged.set index (refresh old call)
    | none => merged
  | none => if merged.length < maxCalls then merged ++ [call] else merged

def mergeToolCalls (lib : Stdlib) (previous : List ToolCall) (incoming : List ToolCall) :
    List ToolCall :=
  if incoming = [] then previous
  else
    let stored := deserializeToolCalls previous
    let streamCalls := (stored ++ incoming).filter fun call => !isDomCall call
    let merged := dedupe (stored.map (upgradeCall lib streamCalls))
    let incoming := incoming.filter fun call =>
      !(isDomCall call && streamCalls.any (sameActivity lib call))
    serializeToolCalls (incoming.foldl mergeCall merged)

@[simp] theorem mergeToolCalls_nil (lib : Stdlib) (previous : List ToolCall) :
    mergeToolCalls lib previous [] = previous := by simp [mergeToolCalls]

end Prompta.ToolCalls
