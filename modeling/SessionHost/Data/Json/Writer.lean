import SessionHost.Data.Value
import SessionHost.Bytes

/-!
# Writing JSON

The written form is one line of ASCII: a character past the end of ASCII is escaped, as one unit of
sixteen bits or as a pair of them.
-/
namespace SessionHost.Json

/-- Four hexadecimal digits of a unit of sixteen bits. -/
def unitHex (n : Nat) : String :=
  String.ofList ['\\', 'u', Bytes.hexDigit (n / 4096 % 16), Bytes.hexDigit (n / 256 % 16),
    Bytes.hexDigit (n / 16 % 16), Bytes.hexDigit (n % 16)]

def writeChar (c : Char) : String :=
  if c == '"' then "\\\""
  else if c == '\\' then "\\\\"
  else if c == '\n' then "\\n"
  else if c.toNat < 0x20 || c.toNat == 0x7f then unitHex c.toNat
  else if c.toNat < 0x80 then String.singleton c
  else if c.toNat < 0x10000 then unitHex c.toNat
  else
    let n := c.toNat - 0x10000
    unitHex (0xD800 + n / 0x400) ++ unitHex (0xDC00 + n % 0x400)

def writeString (s : String) : String :=
  s.toList.foldl (fun out c => out ++ writeChar c) "\"" ++ "\""

mutual

/-- Appends a value to a text. -/
def writeTo (out : String) : Data → String
  | .null => out ++ "null"
  | .bool b => out ++ (if b then "true" else "false")
  | .integer n => out ++ toString n
  | .other => out ++ "null"
  | .text s => out ++ writeString s
  | .list items => writeItems (out ++ "[") true items ++ "]"
  | .table fields => writeFields (out ++ "\x7b") true fields ++ "\x7d"

/-- Appends the items of a list, with commas between them. -/
def writeItems (out : String) (first : Bool) : List Data → String
  | [] => out
  | v :: rest => writeItems (writeTo (if first then out else out ++ ",") v) false rest

/-- Appends the fields of a table, with commas between them. -/
def writeFields (out : String) (first : Bool) : List (String × Data) → String
  | [] => out
  | (key, v) :: rest =>
    let out := (if first then out else out ++ ",") ++ writeString key ++ ":"
    writeFields (writeTo out v) false rest

end

def write (v : Data) : String := writeTo "" v

end SessionHost.Json
