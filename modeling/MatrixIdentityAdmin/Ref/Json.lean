/-!
# JSON documents

`serde_json::Value`, with the few of its methods the service uses.
-/

namespace MatrixIdentityAdmin.Ref

/-- `serde_json::Value`. The order of the members of an object is not looked
at; a number that is not an integer is kept as its text. -/
inductive Value where
  | null
  | bool (b : Bool)
  | number (n : Int)
  | float (text : String)
  | string (s : String)
  | array (items : List Value)
  | object (members : List (String × Value))

namespace Value

/-- `Map::get`. -/
def get (key : String) (members : List (String × Value)) : Option Value :=
  (members.find? fun m => m.1 = key).map Prod.snd

/-- `Map::insert`. -/
def insert (key : String) (value : Value) (members : List (String × Value)) :
    List (String × Value) :=
  members.filter (fun m => m.1 ≠ key) ++ [(key, value)]

/-- `Value::get`. -/
def field (key : String) : Value → Option Value
  | .object members => get key members
  | _ => none

/-- `Value::as_str`. -/
def asStr : Value → Option String
  | .string s => some s
  | _ => none

/-- `Value::as_array`. -/
def asArray : Value → Option (List Value)
  | .array items => some items
  | _ => none

end Value

end MatrixIdentityAdmin.Ref
