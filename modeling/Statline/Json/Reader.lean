import Statline.Decimal.Reading
import Statline.Json.Basic

namespace Statline.Json

def isGap (c : Char) : Bool :=
  c = ' ' || c = '\n' || c = '\t' || c = '\r'

def skipGap (text : List Char) : List Char :=
  text.dropWhile isGap

def hexDigit? (c : Char) : Option Nat :=
  if '0' ≤ c && c ≤ '9' then some (c.toNat - '0'.toNat)
  else if 'a' ≤ c && c ≤ 'f' then some (c.toNat - 'a'.toNat + 10)
  else if 'A' ≤ c && c ≤ 'F' then some (c.toNat - 'A'.toNat + 10)
  else none

def hexUnit? (a b c d : Char) : Option Nat := do
  return (((← hexDigit? a) * 16 + (← hexDigit? b)) * 16 + (← hexDigit? c)) * 16 + (← hexDigit? d)

def shortEscape? (c : Char) : Option Char :=
  match c with
  | '"' => some '"'
  | '\\' => some '\\'
  | '/' => some '/'
  | 'b' => some '\x08'
  | 'f' => some '\x0c'
  | 'n' => some '\n'
  | 'r' => some '\r'
  | 't' => some '\t'
  | _ => none

/-- The code points of a string up to its closing quote, halves of surrogate pairs among them, and
the text behind it. -/
def codePoints : List Char → Option (List Nat × List Char)
  | '"' :: rest => some ([], rest)
  | '\\' :: 'u' :: a :: b :: c :: d :: rest => do
    let unit ← hexUnit? a b c d
    let (points, rest) ← codePoints rest
    return (unit :: points, rest)
  | '\\' :: c :: rest => do
    let plain ← shortEscape? c
    let (points, rest) ← codePoints rest
    return (plain.toNat :: points, rest)
  | c :: rest =>
    if c.toNat < 0x20 then none
    else do
      let (points, rest) ← codePoints rest
      return (c.toNat :: points, rest)
  | [] => none

/-- Joins the halves of surrogate pairs; none if one stands alone. -/
def joinSurrogates : List Nat → Option (List Char)
  | [] => some []
  | [point] => if 0xD800 ≤ point && point < 0xE000 then none else some [Char.ofNat point]
  | high :: low :: rest =>
    if 0xD800 ≤ high && high < 0xDC00 then
      if 0xDC00 ≤ low && low < 0xE000 then
        (joinSurrogates rest).map
          (Char.ofNat (0x10000 + (high - 0xD800) * 0x400 + (low - 0xDC00)) :: ·)
      else none
    else if 0xDC00 ≤ high && high < 0xE000 then none
    else (joinSurrogates (low :: rest)).map (Char.ofNat high :: ·)

/-- A string without its opening quote; the text itself is missing where it is no Unicode text. -/
def string (text : List Char) : Option (Option String × List Char) := do
  let (points, rest) ← codePoints text
  return ((joinSurrogates points).map String.ofList, rest)

/-- A number as it is written. -/
structure Numeral where
  negative : Bool
  whole : List Char
  fraction : Option (List Char)
  /-- Whether the exponent is negative, and its digits. -/
  exponent : Option (Bool × List Char)

/-- Cuts the text behind one digit or more. -/
def digits (text : List Char) : Option (List Char × List Char) :=
  let run := text.takeWhile Char.isDigit
  if run.isEmpty then none else some (run, text.drop run.length)

def fraction (text : List Char) : Option (Option (List Char) × List Char) :=
  match text with
  | '.' :: rest => (digits rest).map fun (run, rest) => (some run, rest)
  | _ => some (none, text)

def exponentDigits (negative : Bool) (text : List Char) :
    Option (Option (Bool × List Char) × List Char) :=
  (digits text).map fun (run, rest) => (some (negative, run), rest)

def exponent (text : List Char) : Option (Option (Bool × List Char) × List Char) :=
  match text with
  | 'e' :: rest | 'E' :: rest =>
    match rest with
    | '+' :: rest => exponentDigits false rest
    | '-' :: rest => exponentDigits true rest
    | _ => exponentDigits false rest
  | _ => some (none, text)

/-- The digits before the point: no zero leads others. -/
def whole (text : List Char) : Option (List Char × List Char) := do
  let (run, rest) ← digits text
  if run.length ≠ 1 && run.head? = some '0' then none else some (run, rest)

def numeral (text : List Char) : Option (Numeral × List Char) := do
  let (negative, rest) := match text with
    | '-' :: rest => (true, rest)
    | _ => (false, text)
  let (whole, rest) ← whole rest
  let (fraction, rest) ← fraction rest
  let (exponent, rest) ← exponent rest
  return (⟨negative, whole, fraction, exponent⟩, rest)

namespace Numeral

/-- The greatest exponent that is read; a greater one stands for all that are. -/
def greatestExponent : Nat := 2147483647

def exponentValue (numeral : Numeral) : Int :=
  match numeral.exponent with
  | none => 0
  | some (negative, digits) =>
    let n := digits.foldl (fun n c => min greatestExponent (10 * n + (c.toNat - '0'.toNat))) 0
    if negative then -n else n

/-- The size of the number: as many digits as fit 64 bits, scaled by a power of ten. -/
def magnitude? (numeral : Numeral) : Option Float :=
  let (head, dropped) := Decimal.appendDigits 0 numeral.whole
  let fraction := numeral.fraction.getD []
  let (significand, ignored) := Decimal.appendDigits head fraction
  let taken : Int := fraction.length - ignored.length
  Decimal.scale? significand (dropped.length - taken + numeral.exponentValue)

def toFloat? (numeral : Numeral) : Option Float :=
  numeral.magnitude?.map fun x => if numeral.negative then -x else x

/-- A number without point and exponent is whole if it fits 64 bits; `-0` is no whole number. -/
def toInt? (numeral : Numeral) : Option Int :=
  match numeral.fraction, numeral.exponent with
  | none, none =>
    match Decimal.appendDigits 0 numeral.whole with
    | (n, []) =>
      if !numeral.negative then some n
      else if 0 < n && Int64.minValue.toInt ≤ -n then some (-n)
      else none
    | _ => none
  | _, _ => none

def toJson (numeral : Numeral) : Json :=
  match numeral.toInt?, numeral.toFloat? with
  | some n, _ => .int n
  | none, some x => .float x
  | none, none => .garbled

end Numeral

mutual

/-- A value and the text behind it. Every call takes a character at least, so a budget of one more
than the length of the text is never used up. -/
def value : Nat → List Char → Option (Json × List Char)
  | 0, _ => none
  | budget + 1, text =>
    match skipGap text with
    | '"' :: rest => do
      let (content, rest) ← string rest
      return (content.elim garbled str, rest)
    | '[' :: rest =>
      match skipGap rest with
      | ']' :: rest => some (arr [], rest)
      | _ => do
        let (items, rest) ← items budget rest
        return (arr items, rest)
    | '\x7b' :: rest =>
      match skipGap rest with
      | '\x7d' :: rest => some (obj [], rest)
      | _ => do
        let (fields, rest) ← fields budget rest
        return (fields.elim garbled obj, rest)
    | 'n' :: 'u' :: 'l' :: 'l' :: rest => some (null, rest)
    | 't' :: 'r' :: 'u' :: 'e' :: rest => some (bool true, rest)
    | 'f' :: 'a' :: 'l' :: 's' :: 'e' :: rest => some (bool false, rest)
    | text => do
      let (number, rest) ← numeral text
      return (number.toJson, rest)

/-- The items of an array up to its closing bracket. -/
def items : Nat → List Char → Option (List Json × List Char)
  | 0, _ => none
  | budget + 1, text => do
    let (item, rest) ← value budget text
    match skipGap rest with
    | ']' :: rest => return ([item], rest)
    | ',' :: rest =>
      let (others, rest) ← items budget rest
      return (item :: others, rest)
    | _ => none

/-- The fields of an object up to its closing brace; missing if a name is no Unicode text. -/
def fields : Nat → List Char → Option (Option (List (String × Json)) × List Char)
  | 0, _ => none
  | budget + 1, text =>
    match skipGap text with
    | '"' :: rest => do
      let (name, rest) ← string rest
      match skipGap rest with
      | ':' :: rest =>
        let (content, rest) ← value budget rest
        let field := name.map (·, content)
        match skipGap rest with
        | '\x7d' :: rest => return (field.map ([·]), rest)
        | ',' :: rest =>
          let (others, rest) ← fields budget rest
          return (field.bind fun field => others.map (field :: ·), rest)
        | _ => none
      | _ => none
    | _ => none

end

/-- Reads a text that holds one value and nothing else. -/
def parse? (text : String) : Option Json :=
  match value (text.length + 1) text.toList with
  | some (json, rest) => if (skipGap rest).isEmpty then some json else none
  | none => none

end Statline.Json
