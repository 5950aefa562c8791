import Rustdcr.Bytes

/-!
# JSON values and the JSON-RPC request record

The `serde_json::Value` tree the client marshals into requests and reads
back from responses, the `JsonRequest` record `marshal_command` builds, and
the one `serde_json` conversion the hex decoder relies on (`from_value` into
a `String`).

Strings are Lean `String`s, so a JSON string always holds valid UTF-8.
-/

namespace Rustdcr.Dcrjson

/-- `serde_json::Number`: a `u64`, a negative `i64`, or an `f64`. -/
inductive Number where
  | posInt (n : UInt64)
  | negInt (n : Int)
  | float (f : Float)

/-- `serde_json::Value`. -/
inductive Value where
  | null
  | bool (b : Bool)
  | number (n : Number)
  | string (s : String)
  | array (vs : List Value)
  | object (entries : List (String × Value))

/-- `Value::is_null`. -/
def Value.isNull : Value → Bool
  | .null => true
  | _ => false

/-- The error `serde_json::from_value` reports for a value of the wrong shape. -/
inductive DeError where
  | invalidType
  deriving DecidableEq, Repr

/-- `serde_json::from_value::<String>`: only a JSON string converts. -/
def fromValueString : Value → Except DeError String
  | .string s => .ok s
  | _ => .error .invalidType

/-- `result_types::JsonRequest`, the record `marshal_command` serialises:
`{"jsonrpc": .., "id": .., "method": .., "params": [..]}`. -/
structure JsonRequest where
  jsonrpc : String
  id : UInt64
  method : String
  params : List Value

end Rustdcr.Dcrjson
