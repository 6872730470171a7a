import StaticConfig.Builtin.Args
import StaticConfig.Json.Reader
import StaticConfig.Yaml.Printer

/-!
Base64 with padding. Only canonical texts decode: each group of four characters is complete, and
the bits that padding leaves over are zero.
-/
namespace StaticConfig.Text.Base64

def digit (n : Nat) : Char :=
  if n < 26 then Char.ofNat ('A'.toNat + n)
  else if n < 52 then Char.ofNat ('a'.toNat + (n - 26))
  else if n < 62 then Char.ofNat ('0'.toNat + (n - 52))
  else if n = 62 then '+'
  else '/'

def value? (c : Char) : Option Nat :=
  if c.isUpper then some (c.toNat - 'A'.toNat)
  else if c.isLower then some (c.toNat - 'a'.toNat + 26)
  else if c.isDigit then some (c.toNat - '0'.toNat + 52)
  else if c = '+' then some 62
  else if c = '/' then some 63
  else none

def encode : List UInt8 → List Char
  | a :: b :: c :: rest =>
    let n := (a.toNat * 256 + b.toNat) * 256 + c.toNat
    digit (n / 262144) :: digit (n / 4096 % 64) :: digit (n / 64 % 64) :: digit (n % 64)
      :: encode rest
  | [a, b] =>
    let n := a.toNat * 256 + b.toNat
    [digit (n / 1024), digit (n / 16 % 64), digit (n % 16 * 4), '=']
  | [a] => [digit (a.toNat / 4), digit (a.toNat % 4 * 16), '=', '=']
  | [] => []

/-- The bytes of one group of four characters. -/
def decodeGroup (a b c d : Char) : Option (List UInt8) := do
  let a ← value? a
  let b ← value? b
  if c = '=' then
    if d = '=' ∧ b % 16 = 0 then some [UInt8.ofNat (a * 4 + b / 16)] else none
  else
    let c ← value? c
    if d = '=' then
      if c % 4 = 0 then
        some [UInt8.ofNat (a * 4 + b / 16), UInt8.ofNat (b % 16 * 16 + c / 4)]
      else none
    else
      let d ← value? d
      some [UInt8.ofNat (a * 4 + b / 16), UInt8.ofNat (b % 16 * 16 + c / 4),
        UInt8.ofNat (c % 4 * 64 + d)]

/-- The bytes of a text. Padded texts may follow each other. -/
def decode : List Char → Option (List UInt8)
  | [] => some []
  | a :: b :: c :: d :: rest => do
    let first ← decodeGroup a b c d
    let others ← decode rest
    some (first ++ others)
  | _ => none

end StaticConfig.Text.Base64

/-!
Functions that write values as documents and read documents as values.
-/
namespace StaticConfig.Builtin.Encodings

open StaticConfig.Builtin

def base64encode (v : Value) : CallResult := do
  let s ← asString v
  .ok (.string (String.ofList (Text.Base64.encode s.toUTF8.toList)))

def base64decode (v : Value) : CallResult := do
  let s ← asString v
  match Text.Base64.decode s.toList with
  | none => .error (.badBase64 s)
  | some bytes =>
    match String.fromUTF8? ⟨bytes.toArray⟩ with
    | some text => .ok (.string text)
    | none => .error .notUtf8

/-- A function that writes its argument as a document. -/
def writer (write : Json → String) : Builtin :=
  unary .string fun v =>
    match Json.ofValue? v with
    | some j => .ok (.string (write j))
    | none => .error .unknownDocument

/-- A function that reads a document. -/
def reader (read : String → Option Json) (error : CallError) : Builtin :=
  unary .dynamic fun v => do
    let s ← asString v
    match read s with
    | some j => .ok j.toValue
    | none => .error error

def functions : List (String × Builtin) := [
  ("base64decode", unary .string base64decode),
  ("base64encode", unary .string base64encode),
  ("jsondecode", reader Json.read? .badJson),
  ("jsonencode", writer Json.write),
  ("yamldecode", reader Yaml.readJson? .badYaml),
  ("yamlencode", writer Yaml.write)]

end StaticConfig.Builtin.Encodings
