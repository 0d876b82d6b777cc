import CollectionRun.Number.Shortest
import CollectionRun.OrderedMap
import CollectionRun.Text.Quoted

namespace CollectionRun.Json

open CollectionRun.Number

inductive Value where
  | null
  | bool (b : Bool)
  | integer (n : Int)
  | decimal (x : Binary64)
  | string (s : String)
  | array (items : List Value)
  | object (members : List (String × Value))
  deriving Repr

namespace Value

def typeName : Value → String
  | .null => "NoneType"
  | .bool _ => "bool"
  | .integer _ => "int"
  | .decimal _ => "float"
  | .string _ => "str"
  | .array _ => "list"
  | .object _ => "dict"

def strings (texts : List String) : Value := .array (texts.map .string)

mutual

/-- Two objects become one, the members of `higher` winning and two objects under one name being
joined likewise; any other `higher` value stands for itself. -/
def overlay (lower higher : Value) : Value :=
  match lower, higher with
  | .object low, .object high => .object (overlayMembers low high)
  | _, _ => higher

def overlayMembers (low : List (String × Value)) : List (String × Value) → List (String × Value)
  | [] => low
  | (name, value) :: rest =>
    let joined := match OrderedMap.findIn name low with
      | some old => overlay old value
      | none => value
    overlayMembers (OrderedMap.putIn name joined low) rest

end

mutual

def shown : Value → String
  | .null => "None"
  | .bool b => if b then "True" else "False"
  | .integer n => toString n
  | .decimal x => x.text
  | .string s => Text.quoted s
  | .array items => "[" ++ ", ".intercalate (shownItems items) ++ "]"
  | .object members => "\x7b" ++ ", ".intercalate (shownMembers members) ++ "\x7d"

def shownItems : List Value → List String
  | [] => []
  | v :: rest => v.shown :: shownItems rest

def shownMembers : List (String × Value) → List String
  | [] => []
  | (name, v) :: rest => (Text.quoted name ++ ": " ++ v.shown) :: shownMembers rest

end

end Value

end CollectionRun.Json
