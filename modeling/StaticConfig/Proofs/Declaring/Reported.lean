import StaticConfig.Module.Reader
import StaticConfig.Proofs.Evaluation.Raised

/-!
What the readers of declarations report. They look at one block at a time, so none of it is about a
declaration whose name is taken.
-/
namespace StaticConfig

open Eval (Only only_pure only_bind)

/-- The diagnostic is about a declaration whose name is taken. -/
def Diagnostic.isRepeat (d : Diagnostic) : Bool :=
  d.kind == .decode && Text.startsWith "Duplicate" d.summary

theorem Diagnostic.isRepeat_of_kind {d : Diagnostic} (h : d.kind = .evaluation) :
    d.isRepeat = false := by
  rw [isRepeat, h]
  rfl

theorem Diagnostic.isRepeat_of_summary {d : Diagnostic}
    (h : Text.startsWith "Duplicate" d.summary = false) : d.isRepeat = false := by
  rw [isRepeat, h, Bool.and_false]

/-- Nothing that is reported is about a name that is taken. -/
abbrev Fresh {α : Type} (r : Report α) : Prop := Only (fun d => d.isRepeat = false) r

theorem fresh_constant (library : Library) (e : Expr) : Fresh (Eval.constant library e) := by
  intro d hd
  apply Diagnostic.isRepeat_of_kind
  unfold Eval.constant at hd
  split at hd
  · cases List.mem_singleton.1 hd
    rfl
  · exact Eval.kind_of_mem_diags hd

namespace Constraint

variable {library : Library}

theorem isRepeat_invalid (detail : String) (e : Expr) : (invalid detail e).isRepeat = false :=
  Diagnostic.isRepeat_of_summary (by simp [invalid, Diagnostic.errorAt, Text.startsWith,
    List.isPrefixOf])

theorem isRepeat_wrongDefault (e : ConversionError) (span : Span) :
    (wrongDefault e span).isRepeat = false :=
  Diagnostic.isRepeat_of_summary (by simp [wrongDefault, Diagnostic.errorAt, Text.startsWith,
    List.isPrefixOf])

theorem fresh_refuse (detail : String) (e : Expr) : Fresh (refuse detail e) :=
  List.forall_mem_singleton.2 (isRepeat_invalid detail e)

theorem fresh_ofKeyword (name : String) (e : Expr) : Fresh (ofKeyword name e) := by
  unfold ofKeyword
  repeat' split
  all_goals first
    | exact only_pure _
    | exact fresh_refuse _ e

theorem fresh_keywordOr {e : Expr} {other : Report Ty} (h : Fresh other) :
    Fresh (keywordOr e other) := by
  unfold keywordOr
  split
  · exact fresh_ofKeyword _ e
  · exact h

mutual

theorem fresh_typeOf : ∀ e : Expr, Fresh (typeOf e)
  | .call span name args expand => fresh_typeOfCall _ name args
  | .parens _ inner => fresh_keywordOr (fresh_typeOf inner)
  | .literal _ _ | .template _ _ | .traversal _ _ _ | .relative _ _ _ | .index _ _ _
  | .splat _ _ _ | .tuple _ _ | .object _ _ | .unary _ _ _ | .binary _ _ _ _
  | .conditional _ _ _ _ | .forEach _ _ _ _ _ _ _ _ => fresh_keywordOr (fresh_refuse _ _)

theorem fresh_typeOfCall : ∀ (e : Expr) (name : String) (args : List Expr),
    Fresh (typeOfCall e name args)
  | e, name, args => by
    unfold typeOfCall
    split
    · split
      · next arg => exact only_bind (fresh_typeOf arg) fun _ => only_pure _
      · exact fresh_refuse _ e
    · split
      · split
        · next items => exact only_bind (fresh_typesOf items) fun _ => only_pure _
        · exact fresh_refuse _ e
      · split
        · split
          · next items => exact only_bind (fresh_attrsOf items [] []) fun _ => only_pure _
          · exact fresh_refuse _ e
        · split
          · exact fresh_refuse _ e
          · exact fresh_refuse _ e

theorem fresh_typesOf : ∀ es : List Expr, Fresh (typesOf es)
  | [] => only_pure _
  | e :: es =>
    only_bind (fresh_typeOf e) fun _ => only_bind (fresh_typesOf es) fun _ => only_pure _

theorem fresh_attrsOf : ∀ (items : List (ObjectKey × Expr)) (attrs : Fields Ty)
    (optional : Names), Fresh (attrsOf attrs optional items)
  | [], _, _ => only_pure _
  | (key, value) :: items, attrs, optional => by
    unfold attrsOf
    split
    · exact only_bind (List.forall_mem_singleton.2 (isRepeat_invalid _ value)) fun _ =>
        fresh_attrsOf items attrs optional
    · refine only_bind (fresh_attrOf value) fun found => ?_
      cases found with
      | none => exact fresh_attrsOf items attrs optional
      | some found => exact fresh_attrsOf items _ _

theorem fresh_attrOf : ∀ value : Expr, Fresh (attrOf value)
  | .call span name args expand => by
    unfold attrOf
    split
    · split
      · next arg => exact only_bind (fresh_typeOf arg) fun _ => only_pure _
      · next arg _ => exact only_bind (fresh_typeOf arg) fun _ => only_pure _
      · exact List.forall_mem_singleton.2 (isRepeat_invalid _ _)
    · exact only_bind (fresh_typeOfCall _ name args) fun _ => only_pure _
  | .parens _ inner => only_bind (fresh_keywordOr (fresh_typeOf inner)) fun _ => only_pure _
  | .literal _ _ | .template _ _ | .traversal _ _ _ | .relative _ _ _ | .index _ _ _
  | .splat _ _ _ | .tuple _ _ | .object _ _ | .unary _ _ _ | .binary _ _ _ _
  | .conditional _ _ _ _ | .forEach _ _ _ _ _ _ _ _ =>
    only_bind (fresh_keywordOr (fresh_refuse _ _)) fun _ => only_pure _

end

theorem fresh_addDefault (name : String) (ty : Ty) (e : Expr) (defaults : Fields Value) :
    Fresh (addDefault library name ty e defaults) := by
  refine only_bind (fresh_constant library e) fun v => ?_
  split
  · exact only_pure _
  · exact List.forall_mem_singleton.2 (isRepeat_wrongDefault _ _)

mutual

theorem fresh_defaultsOf : ∀ (e : Expr) (ty : Ty), Fresh (defaultsOf library e ty)
  | .parens _ inner, ty => fresh_defaultsOf inner ty
  | .call _ name args _, ty => fresh_defaultsOfCall name args ty
  | .literal _ _, _ | .template _ _, _ | .traversal _ _ _, _ | .relative _ _ _, _
  | .index _ _ _, _ | .splat _ _ _, _ | .tuple _ _, _ | .object _ _, _ | .unary _ _ _, _
  | .binary _ _ _ _, _ | .conditional _ _ _ _, _ | .forEach _ _ _ _ _ _ _ _, _ => only_pure _
termination_by e => sizeOf e

theorem fresh_defaultsOfCall : ∀ (name : String) (args : List Expr) (ty : Ty),
    Fresh (defaultsOfCall library name args ty)
  | name, args, ty => by
    unfold defaultsOfCall
    split
    · split
      · next arg _ => exact only_bind (fresh_defaultsOf arg _) fun _ => only_pure _
      · exact only_pure _
    · split
      · split
        · next items _ _ _ =>
          exact only_bind (fresh_tupleDefaults items _ 0 []) fun _ => only_pure _
        · exact only_pure _
      · split
        · split
          · next items _ _ _ _ =>
            exact only_bind (fresh_objectDefaults items _ [] []) fun _ => only_pure _
          · exact only_pure _
        · exact only_pure _
termination_by _ args => sizeOf args

theorem fresh_tupleDefaults : ∀ (es : List Expr) (ts : List Ty) (index : Nat)
    (children : Fields Defaults), Fresh (tupleDefaults library index children es ts)
  | e :: es, t :: ts, _, _ =>
    only_bind (fresh_defaultsOf e t) fun _ => fresh_tupleDefaults es ts _ _
  | [], _, _, _ => only_pure _
  | _ :: _, [], _, _ => only_pure _
termination_by es => sizeOf es

theorem fresh_objectDefaults : ∀ (items : List (ObjectKey × Expr)) (attrs : Fields Ty)
    (defaults : Fields Value) (children : Fields Defaults),
    Fresh (objectDefaults library attrs defaults children items)
  | [], _, _, _ => only_pure _
  | (key, value) :: items, attrs, defaults, children => by
    unfold objectDefaults
    split
    · exact fresh_objectDefaults items attrs defaults children
    · exact only_bind (fresh_attrDefaults value _ _ defaults) fun _ =>
        fresh_objectDefaults items attrs _ _
termination_by items => sizeOf items

theorem fresh_attrDefaults : ∀ (value : Expr) (name : String) (ty : Ty)
    (defaults : Fields Value), Fresh (attrDefaults library name ty defaults value)
  | .call _ called args _, name, ty, defaults => by
    unfold attrDefaults
    split
    · split
      · exact only_pure _
      · next arg => exact only_bind (fresh_defaultsOf arg ty) fun _ => only_pure _
      · next arg e _ =>
        exact only_bind (fresh_addDefault name ty e defaults) fun _ =>
          only_bind (fresh_defaultsOf arg ty) fun _ => only_pure _
    · exact only_bind (fresh_defaultsOfCall called args ty) fun _ => only_pure _
  | .parens _ inner, _, ty, _ => only_bind (fresh_defaultsOf inner ty) fun _ => only_pure _
  | .literal _ _, _, _, _ | .template _ _, _, _, _ | .traversal _ _ _, _, _, _
  | .relative _ _ _, _, _, _ | .index _ _ _, _, _, _ | .splat _ _ _, _, _, _
  | .tuple _ _, _, _, _ | .object _ _, _, _, _ | .unary _ _ _, _, _, _
  | .binary _ _ _ _, _, _, _ | .conditional _ _ _ _, _, _, _
  | .forEach _ _ _ _ _ _ _ _, _, _, _ => only_pure _
termination_by value => sizeOf value

end

theorem fresh_ofExpr (library : Library) (e : Expr) : Fresh (ofExpr library e) :=
  only_bind (fresh_typeOf e) fun ty => only_bind (fresh_defaultsOf e ty) fun _ => only_pure _

end Constraint

namespace Module

variable {library : Library}

theorem isRepeat_problem {summary : String} (h : Text.startsWith "Duplicate" summary = false)
    (detail : String) (span : Span) : (problem summary detail span).isRepeat = false :=
  Diagnostic.isRepeat_of_summary h

theorem startsWith_missing (type : String) :
    Text.startsWith "Duplicate" ("Missing name for " ++ type) = false := by
  simp [Text.startsWith, String.toList_append, List.isPrefixOf]

theorem startsWith_extraneous (type : String) :
    Text.startsWith "Duplicate" ("Extraneous label for " ++ type) = false := by
  simp [Text.startsWith, String.toList_append, List.isPrefixOf]

theorem startsWith_invalid (kind : String) :
    Text.startsWith "Duplicate" ("Invalid " ++ kind ++ " name") = false := by
  simp [Text.startsWith, String.toList_append, List.isPrefixOf]

theorem isRepeat_checkLabels (b : Block) (names : List String) :
    ∀ d ∈ checkLabels b names, d.isRepeat = false := by
  unfold checkLabels
  dsimp only
  split
  · exact List.forall_mem_singleton.2 (isRepeat_problem (startsWith_missing _) _ _)
  · split
    · exact List.forall_mem_singleton.2 (isRepeat_problem (startsWith_extraneous _) _ _)
    · exact List.forall_mem_nil _

theorem isRepeat_checkName (b : Block) (index : Nat) (kind : String) :
    ∀ d ∈ checkName b index kind, d.isRepeat = false := by
  unfold checkName
  split
  · exact List.forall_mem_nil _
  · exact List.forall_mem_singleton.2 (isRepeat_problem (startsWith_invalid _) _ _)

theorem fresh_nameOf (b : Block) (kind : String) : Fresh (nameOf b kind) := by
  unfold nameOf
  split
  · split
    · exact only_pure _
    · exact isRepeat_checkName b 0 kind
  · exact isRepeat_checkLabels b _

theorem fresh_constant (a : Attribute) (ty : Ty) : Fresh (constant library a ty) := by
  have heval := StaticConfig.fresh_constant library a.expr
  unfold constant
  dsimp only
  split
  · exact heval
  · split
    · exact heval
    · exact List.forall_mem_append.2 ⟨heval,
        List.forall_mem_singleton.2 (isRepeat_problem (by decide) _ _)⟩

theorem fresh_constantBool (b : Body) (name : String) : Fresh (constantBool library b name) := by
  unfold constantBool
  split
  · exact only_bind (fresh_constant _ _) fun _ => only_pure _
  · exact only_pure _

theorem fresh_constantString (b : Body) (name : String) :
    Fresh (constantString library b name) := by
  unfold constantString
  split
  · exact only_bind (fresh_constant _ _) fun _ => only_pure _
  · exact only_pure _

theorem fresh_defaultOf (b : Body) (c : Constraint) (nullable : Bool) :
    Fresh (defaultOf library b c nullable) := by
  have hbad (detail : String) (a : Attribute) : ∀ d ∈ [badDefault detail a], d.isRepeat = false :=
    List.forall_mem_singleton.2 (isRepeat_problem (by decide) _ _)
  unfold defaultOf
  split
  · exact only_pure _
  · next a _ =>
    have heval := StaticConfig.fresh_constant library a.expr
    dsimp only
    split
    · exact heval
    · split
      · refine List.forall_mem_append.2 ⟨heval, ?_⟩
        split
        · exact hbad _ a
        · exact List.forall_mem_nil _
      · exact List.forall_mem_append.2 ⟨heval, hbad _ a⟩

theorem fresh_readVariable (b : Block) : Fresh (readVariable library b) := by
  refine only_bind (fresh_nameOf b _) fun name => ?_
  split
  · exact only_pure _
  · dsimp only
    split
    all_goals
      refine only_bind ?_ fun c => only_bind (fresh_constantString b.body _) fun _ =>
        only_bind (fresh_constantBool b.body _) fun _ =>
          only_bind (fresh_constantBool b.body _) fun _ =>
            only_bind (fresh_defaultOf b.body c _) fun _ => only_pure _
    · exact Constraint.fresh_ofExpr library _
    · exact only_pure _

theorem fresh_missingArgument {α : Type} (name : String) (b : Block) :
    Fresh (report (missingArgument name b) : Report (Option α)) :=
  List.forall_mem_singleton.2 (isRepeat_problem (by decide) _ _)

theorem fresh_readOutput (b : Block) : Fresh (readOutput library b) := by
  refine only_bind (fresh_nameOf b _) fun name => ?_
  split
  · exact only_pure _
  · split
    · exact fresh_missingArgument _ b
    · exact only_bind (fresh_constantString b.body _) fun _ =>
        only_bind (fresh_constantBool b.body _) fun _ => only_pure _

theorem fresh_readCall (b : Block) : Fresh (readCall library b) := by
  refine only_bind (fresh_nameOf b _) fun name => ?_
  split
  · exact only_pure _
  · split
    · exact fresh_missingArgument _ b
    · refine only_bind (fresh_constant _ _) fun _ => ?_
      split
      · exact only_pure _
      · split
        · exact List.forall_mem_singleton.2 (isRepeat_problem (by decide) _ _)
        · exact only_pure _

theorem fresh_readResource (mode : ResourceMode) (b : Block) : Fresh (readResource mode b) := by
  unfold readResource
  dsimp only
  split
  · split
    · exact only_pure _
    · exact isRepeat_checkName b 1 _
  · exact isRepeat_checkLabels b _

end Module

end StaticConfig
