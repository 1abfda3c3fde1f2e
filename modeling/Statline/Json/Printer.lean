import Statline.Decimal.Layout
import Statline.Json.Basic

namespace Statline.Json

/-- Numbers in documents show that they may have a fraction, and turn to an exponent where they
would be long. -/
def layout : Decimal.Layout := ⟨.even, true, some (-4, 16)⟩

def escape (c : Char) : List Char :=
  match c with
  | '"' => ['\\', '"']
  | '\\' => ['\\', '\\']
  | '\x08' => ['\\', 'b']
  | '\x0c' => ['\\', 'f']
  | '\n' => ['\\', 'n']
  | '\r' => ['\\', 'r']
  | '\t' => ['\\', 't']
  | c =>
    if c.toNat < 0x20 then
      ['\\', 'u', '0', '0', Nat.digitChar (c.toNat / 16), Nat.digitChar (c.toNat % 16)]
    else [c]

def quote (text : String) : List Char :=
  '"' :: (text.toList.flatMap escape ++ ['"'])

/-- What no double can hold has no text of its own. -/
def scalar : Json → List Char
  | bool true => "true".toList
  | bool false => "false".toList
  | int n => (toString n).toList
  | float x => if x.isFinite then (layout.write x).toList else "null".toList
  | str text => quote text
  | _ => "null".toList

mutual

def compact : Json → List Char
  | arr items => '[' :: (compactItems items ++ [']'])
  | obj fields => '\x7b' :: (compactFields fields ++ ['\x7d'])
  | value => scalar value

def compactItems : List Json → List Char
  | [] => []
  | [item] => compact item
  | item :: rest => compact item ++ ',' :: compactItems rest

def compactFields : List (String × Json) → List Char
  | [] => []
  | [(name, value)] => quote name ++ ':' :: compact value
  | (name, value) :: rest => quote name ++ ':' :: (compact value ++ ',' :: compactFields rest)

end

def newline (level : Nat) : List Char :=
  '\n' :: List.replicate (2 * level) ' '

mutual

/-- One item or field a line, two spaces deeper than what encloses it. -/
def pretty (level : Nat) : Json → List Char
  | arr [] => ['[', ']']
  | arr items => '[' :: (prettyItems (level + 1) items ++ newline level ++ [']'])
  | obj [] => ['\x7b', '\x7d']
  | obj fields => '\x7b' :: (prettyFields (level + 1) fields ++ newline level ++ ['\x7d'])
  | value => scalar value

def prettyItems (level : Nat) : List Json → List Char
  | [] => []
  | [item] => newline level ++ pretty level item
  | item :: rest => newline level ++ pretty level item ++ ',' :: prettyItems level rest

def prettyFields (level : Nat) : List (String × Json) → List Char
  | [] => []
  | [(name, value)] => newline level ++ quote name ++ ':' :: ' ' :: pretty level value
  | (name, value) :: rest =>
    newline level ++ quote name ++ ':' :: ' ' :: (pretty level value ++
      ',' :: prettyFields level rest)

end

def compactText (json : Json) : String :=
  String.ofList (compact json)

def prettyText (json : Json) : String :=
  String.ofList (pretty 0 json)

end Statline.Json
