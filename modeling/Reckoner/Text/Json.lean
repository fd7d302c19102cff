import Reckoner.Text.Integer

/-! # JSON text

JSON strings in ASCII alone, and objects on one line whose fields keep their order.
-/

namespace Reckoner.Text.Json

/-- The UTF-16 code units of a character. -/
def units16 (c : Char) : List Nat :=
  if c.toNat < 0x10000 then [c.toNat]
  else
    let offset := c.toNat - 0x10000
    [0xD800 + offset / 0x400, 0xDC00 + offset % 0x400]

/-- A character inside a JSON string. -/
def escape (c : Char) : List Char :=
  if c = '\x22' || c = '\\' then ['\\', c]
  else if c = '\n' then ['\\', 'n']
  else if c = '\r' then ['\\', 'r']
  else if c = '\t' then ['\\', 't']
  else if c = '\x08' then ['\\', 'b']
  else if c = '\x0c' then ['\\', 'f']
  else if 0x20 ≤ c.toNat && c.toNat < 0x7F then [c]
  else (units16 c).flatMap fun unit => '\\' :: 'u' :: padded 16 4 unit

/-- A text as a JSON string. -/
def string (text : String) : String :=
  String.ofList ('\x22' :: text.toList.flatMap escape ++ ['\x22'])

/-- A JSON object from its keys and the JSON texts of their values. -/
def object (fields : List (String × String)) : String :=
  "\x7b" ++ ", ".intercalate (fields.map fun field => string field.1 ++ ": " ++ field.2) ++ "\x7d"

end Reckoner.Text.Json
