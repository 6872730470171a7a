import StaticConfig.Builtin.Args
import StaticConfig.Diagnostic
import StaticConfig.Parser.Body
import StaticConfig.Value.Printer

/-!
Functions that write values as expressions and as variable definitions, and one that reads such
definitions. The evaluation of the expressions that are read is a parameter.
-/
namespace StaticConfig.Builtin.Definitions

open StaticConfig.Builtin

def written (v : Value) : Except CallError String :=
  match v.write? with
  | some s => .ok s
  | none => .error .unknownText

/-- One line for each entry. -/
def writeEntries : List (String × Value) → Except CallError String
  | [] => .ok ""
  | (name, v) :: rest => do
    if !Text.isIdentifier name then .error (.badName name)
    else
      let s ← written v
      let more ← writeEntries rest
      .ok (name ++ " = " ++ s ++ "\n" ++ more)

def encode (v : Value) : CallResult :=
  if v.isNull then .error .encodeNull
  else match v.entries? with
    | some entries => (writeEntries entries).map .string
    | none => .error .encodeKind

/-- The values of the definitions, up to the first that has an error. -/
def readEntries (evaluate : Expr → Report Value) :
    List (String × Attribute) → Except CallError (Fields Value)
  | [] => .ok []
  | (name, a) :: rest => do
    let r := evaluate a.expr
    match Diagnostics.errors r.diags with
    | d :: _ => .error (.badDefinition name d.summary d.detail)
    | [] =>
      let more ← readEntries evaluate rest
      .ok ((name, r.result) :: more)

/-- The name under which the definitions are read. -/
def sourceName : String := "<tfvars>"

def decode (evaluate : Expr → Report Value) (v : Value) : CallResult :=
  if v.isNull then .error .decodeNull
  else do
    let s ← asString v
    match Parser.file ⟨sourceName, s⟩ with
    | .error e => .error (.badDefinitions e)
    | .ok body =>
      match body.blocks with
      | block :: _ => .error (.unexpectedBlock block.type)
      | [] => (readEntries evaluate body.attributes).map .object

def functions (evaluate : Expr → Report Value) : List (String × Builtin) := [
  ("provider::terraform::decode_tfvars", unary .dynamic (decode evaluate)),
  ("provider::terraform::encode_expr", unary .string fun v => (written v).map .string),
  ("provider::terraform::encode_tfvars", unary .string encode)]

end StaticConfig.Builtin.Definitions
