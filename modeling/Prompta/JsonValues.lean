import Prompta.Texts

/-!
Decoded JSON values and the accessors of the stream decoder. A missing field and the null
value read the same. Objects are lists of fields in their order.
-/
namespace Prompta.JsonValues

open Texts

/-- A number that is no integer is kept as the text that the source language writes for it. -/
inductive Json
  | null
  | bool (value : Bool)
  | int (value : ℤ)
  | float (written : Text)
  | str (value : Text)
  | arr (items : List Json)
  | obj (fields : List (Text × Json))

abbrev Fields := List (Text × Json)

/-- `json.loads`, where it succeeds, and `json.dumps(.., indent=2, ensure_ascii=False)`. -/
structure Codec where
  loads : Text → Option Json
  dumps : Json → Text

/-- For streams of prose, which is no JSON and is never written. -/
def proseCodec : Codec := ⟨fun _ => none, fun _ => []⟩

def lookup {α : Type*} (entries : List (Text × α)) (name : Text) : Option α :=
  (entries.find? fun entry => decide (entry.1 = name)).map Prod.snd

/-- The assignment of a key of a dictionary: a new key goes to the end. -/
def assign {α : Type*} (entries : List (Text × α)) (name : Text) (value : α) : List (Text × α) :=
  if (lookup entries name).isSome then
    entries.map fun entry => if entry.1 = name then (name, value) else entry
  else entries ++ [(name, value)]

namespace Fields

def has (fields : Fields) (name : String) : Bool := (lookup fields name.toList).isSome

def get (fields : Fields) (name : String) : Json := (lookup fields name.toList).getD .null

/-- `fields.get(name, default)`: the default is for a missing field only. -/
def getOr (fields : Fields) (name : String) (default : Json) : Json :=
  (lookup fields name.toList).getD default

def set (fields : Fields) (name : String) (value : Json) : Fields := assign fields name.toList value

end Fields

namespace Json

def record : Json → Fields
  | .obj fields => fields
  | _ => []

/-- `_string`: a text that is not empty. -/
def string : Json → Option Text
  | .str [] => none
  | .str t => some t
  | _ => none

def text : Json → Text
  | .str t => t
  | _ => []

def isStr : Json → Bool
  | .str _ => true
  | _ => false

def isNull : Json → Bool
  | .null => true
  | _ => false

/-- `value is True` -/
def isTrue : Json → Bool
  | .bool b => b
  | _ => false

def among (value : Json) (texts : List String) : Bool :=
  match value with
  | .str t => decide (t ∈ texts.map String.toList)
  | _ => false

def truthy : Json → Bool
  | .null => false
  | .bool b => b
  | .int n => decide (n ≠ 0)
  | .float t => decide (t ≠ "0.0".toList ∧ t ≠ "-0.0".toList)
  | .str t => decide (t ≠ [])
  | .arr items => !items.isEmpty
  | .obj fields => !fields.isEmpty

/-- `value or other` -/
def orElse (value other : Json) : Json := if value.truthy then value else other

end Json

/-- `text.rsplit(sep, 1)[-1]` -/
def lastSegment (sep : Char) (t : Text) : Text := t.rtakeWhile fun c => decide (c ≠ sep)

/-- `text.split(sep, 1)[0]` -/
def firstSegment (sep : Char) (t : Text) : Text := t.takeWhile fun c => decide (c ≠ sep)

/-- `text.strip(c)` for one code point. -/
def stripChar (c : Char) (t : Text) : Text :=
  (t.dropWhile fun d => decide (d = c)).rdropWhile fun d => decide (d = c)

theorem lookup_assign_self {α : Type*} (entries : List (Text × α)) (name : Text) (value : α) :
    lookup (assign entries name value) name = some value := by
  unfold assign
  by_cases h : (lookup entries name).isSome = true
  · rw [if_pos h]
    induction entries with
    | nil => exact Bool.noConfusion h
    | cons entry rest ih =>
      by_cases hentry : entry.1 = name
      · simp [lookup, hentry]
      · have hrest : (lookup rest name).isSome = true := by
          simpa [lookup, List.find?_cons, hentry] using h
        have := ih hrest
        simpa [lookup, List.find?_cons, hentry] using this
  · rw [if_neg h]
    rw [Bool.not_eq_true, Option.isSome_eq_false_iff, Option.isNone_iff_eq_none] at h
    have hnone : entries.find? (fun entry => decide (entry.1 = name)) = none := by
      simpa [lookup] using h
    simp [lookup, List.find?_append, hnone]

end Prompta.JsonValues
