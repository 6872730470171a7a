import StaticConfig.Source

/-!
Diagnostics: what is wrong with a configuration, where, and how it is told. A report is a result
together with the diagnostics that came up on the way to it.
-/
namespace StaticConfig

inductive Severity where
  | error
  | warning
  deriving DecidableEq, Inhabited

namespace Severity

def text : Severity → String
  | error => "error"
  | warning => "warning"

end Severity

/-- What went wrong, for readers that react to specific problems. -/
inductive DiagnosticKind where
  | undeclaredSymbol (suggestion : Option String)
  | circularReference (chain : String)
  | typeMismatch
  | invalidAttribute (suggestion : Option String)
  | deprecatedAttribute
  | invalidReference
  | evaluation
  | decode
  | system
  deriving DecidableEq, Inhabited

structure Diagnostic where
  severity : Severity
  kind : DiagnosticKind
  summary : String
  detail : String
  subject : Option Span
  deriving DecidableEq, Inhabited

abbrev Diagnostics := List Diagnostic

namespace Diagnostic

def isError (d : Diagnostic) : Bool :=
  d.severity == .error

/-- An error about a range of a source. -/
def errorAt (kind : DiagnosticKind) (summary detail : String) (subject : Span) : Diagnostic :=
  ⟨.error, kind, summary, detail, some subject⟩

def text (d : Diagnostic) : String :=
  let msg := if d.detail.isEmpty then d.summary else d.summary ++ "; " ++ d.detail
  match d.subject with
  | some span => span.message d.severity.text msg
  | none => d.severity.text ++ ": " ++ msg

end Diagnostic

namespace Diagnostics

def hasErrors (ds : Diagnostics) : Bool :=
  ds.any Diagnostic.isError

def errors (ds : Diagnostics) : Diagnostics :=
  ds.filter Diagnostic.isError

def text (ds : Diagnostics) : String :=
  String.intercalate "\n" (ds.map Diagnostic.text)

theorem hasErrors_append (as bs : Diagnostics) :
    hasErrors (as ++ bs) = (hasErrors as || hasErrors bs) := by
  simp [hasErrors]

end Diagnostics

/-- A result and the diagnostics reported on the way to it, in order. -/
structure Report (α : Type) where
  result : α
  diags : Diagnostics
  deriving Inhabited

namespace Report

variable {α β : Type}

def pure (a : α) : Report α := ⟨a, []⟩

def bind (r : Report α) (f : α → Report β) : Report β :=
  let s := f r.result
  ⟨s.result, r.diags ++ s.diags⟩

instance : Monad Report where
  pure := pure
  bind := bind

def tell (ds : Diagnostics) : Report Unit := ⟨(), ds⟩

theorem pure_eq (a : α) : (Pure.pure a : Report α) = ⟨a, []⟩ := rfl

theorem bind_eq (r : Report α) (f : α → Report β) :
    (r >>= f) = ⟨(f r.result).result, r.diags ++ (f r.result).diags⟩ := rfl

end Report

end StaticConfig
