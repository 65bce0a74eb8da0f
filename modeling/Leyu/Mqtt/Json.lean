import Leyu.Framework.CString

/-!
# JSON trees

What the message handlers use of the cJSON library. The parser itself is not part of the
repository: the handlers take it as a parameter.
-/

namespace Leyu

open Framework

/-- A `cJSON` node; of a number no handler of this development reads the value. -/
inductive Json
  | null
  | bool (b : Bool)
  | number
  | string (valuestring : Text)
  | array (items : List Json)
  | object (members : List (Text × Json))

namespace Json

/-- `cJSON_GetObjectItem`: the first member of that name, upper and lower case not told apart. -/
def getObjectItem (name : Text) : Json → Option Json
  | object members =>
      (members.find? fun m => m.1.map Char.toLower = name.map Char.toLower).map (·.2)
  | _ => none

def valuestring? : Json → Option Text
  | string t => some t
  | _ => none

def object? : Json → Option Json
  | object members => some (object members)
  | _ => none

def items? : Json → Option (List Json)
  | array items => some items
  | _ => none

def stringItem (name : Text) (json : Json) : Option Text :=
  (json.getObjectItem name).bind valuestring?

end Json

end Leyu
