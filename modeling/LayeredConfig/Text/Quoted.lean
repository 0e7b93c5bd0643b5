import LayeredConfig.Text.Classes

/-!
# Quoted text

Two ways of writing a text between quotation marks: for messages, in single quotes unless the text
itself holds one and no double quote; for JSON, in double quotes with the escapes of that format.
-/

namespace LayeredConfig.Text

/-- A character inside quotes of the given kind. -/
def escaped (quote c : Char) : List Char :=
  if c == quote || c == '\\' then ['\\', c]
  else if c == '\n' then ['\\', 'n']
  else if c == '\r' then ['\\', 'r']
  else if c == '\t' then ['\\', 't']
  else if isPrintable c then [c]
  else if c.toNat < 0x100 then '\\' :: 'x' :: digitsInBase 16 2 c.toNat
  else if c.toNat < 0x10000 then '\\' :: 'u' :: digitsInBase 16 4 c.toNat
  else '\\' :: 'U' :: digitsInBase 16 8 c.toNat

/-- The quotation mark that needs the fewest escapes; single wins a tie. -/
def quoteFor (text : List Char) : Char :=
  if text.contains '\'' && !text.contains '"' then '"' else '\''

/-- A text as it is shown in messages. -/
def quoted (text : String) : String :=
  let quote := quoteFor text.toList
  String.ofList (quote :: text.toList.flatMap (escaped quote) ++ [quote])

/-- A character inside a JSON string; only quotes, backslashes and control characters change. -/
def jsonEscaped (c : Char) : List Char :=
  if c == '"' then ['\\', '"']
  else if c == '\\' then ['\\', '\\']
  else if c == '\n' then ['\\', 'n']
  else if c == '\r' then ['\\', 'r']
  else if c == '\t' then ['\\', 't']
  else if c == '\x08' then ['\\', 'b']
  else if c == '\x0c' then ['\\', 'f']
  else if c.toNat < 0x20 then '\\' :: 'u' :: digitsInBase 16 4 c.toNat
  else [c]

/-- A text as a JSON string. -/
def jsonQuoted (text : String) : String :=
  String.ofList ('"' :: text.toList.flatMap jsonEscaped ++ ['"'])

end LayeredConfig.Text
