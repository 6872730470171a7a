import Mathlib.Data.List.TakeWhile
import StaticConfig.Loader.Basic
import StaticConfig.Proofs.Except
import StaticConfig.Proofs.Fields

/-!
The names of local values come from words of a source, and no word contains a dot. The lexer gives
such words, every attribute is named by one, and the reader of modules takes over the names.
-/
namespace StaticConfig

open StaticConfig.Except

/-- If the token is a word, it is an identifier. -/
def Token.Worded (t : Token) : Prop :=
  t.kind = .ident → Text.isIdentifier t.text = true

/-- If the token is a word, it has no dot. -/
def Token.Undotted (t : Token) : Prop :=
  t.kind = .ident → '.' ∉ t.text.toList

namespace Lexer

theorem worded_of_kind {t : Token} (h : t.kind ≠ .ident) : t.Worded :=
  fun hkind => absurd hkind h

theorem undotted_of_kind {t : Token} (h : t.kind ≠ .ident) : t.Undotted :=
  fun hkind => absurd hkind h

theorem undotted_of_worded {t : Token} (h : t.Worded) : t.Undotted :=
  fun hkind => Text.dot_not_mem_of_isIdentifier (h hkind)

/-- A word begins as an identifier does and goes on as long as it may. -/
theorem isIdentifier_takeWhile {c : Char} (h : Text.isIdentifierStart c = true) (cs : List Char) :
    Text.isIdentifier (String.ofList ((c :: cs).takeWhile Text.isIdentifierPart)) = true := by
  rw [List.takeWhile_cons_of_pos (Text.isIdentifierPart_of_start h), Text.isIdentifier,
    String.toList_ofList]
  exact Bool.and_eq_true_iff.2 ⟨h, List.all_takeWhile⟩

theorem ensures_readNumber (source : Source) (pos : Cursor) :
    Ensures (fun r => r.1.Worded) (readNumber source pos) := by
  rw [readNumber]
  exact ensures_ite ensures_error (ensures_ok (worded_of_kind nofun))

theorem ensures_readTemplate (source : Source) (pos : Cursor) (cs : List Char) :
    Ensures (fun r => r.1.Worded) (readTemplate source pos cs) := by
  rw [readTemplate]
  split
  · exact ensures_error
  · exact ensures_ok (worded_of_kind nofun)

theorem ensures_readToken (source : Source) (pos : Cursor) :
    Ensures (fun r => r.1.Worded) (readToken source pos) := by
  rw [readToken]
  split
  · exact ensures_ok (worded_of_kind nofun)
  · next c cs _ =>
    split
    · exact ensures_ok (worded_of_kind nofun)
    · split
      · exact ensures_ok (worded_of_kind nofun)
      · split
        · exact ensures_readTemplate source pos cs
        · split
          · exact ensures_ok (worded_of_kind nofun)
          · split
            · exact ensures_readNumber source pos
            · split
              · next hstart => exact ensures_ok fun _ => isIdentifier_takeWhile hstart cs
              · exact ensures_error

/-- Every word that the lexer reads is an identifier. -/
theorem ensures_worded (source : Source) (pos : Cursor) :
    Ensures (fun r => r.1.Worded) (next source pos) :=
  ensures_then fun pos => ensures_readToken source pos

theorem ensures_next (source : Source) (pos : Cursor) :
    Ensures (fun r => r.1.Undotted) (next source pos) :=
  fun r hr => undotted_of_worded (ensures_worded source pos r hr)

end Lexer

namespace Parser

/-- From a state with the first property the parser, if it succeeds, comes to a result and a state
with the second one. -/
def Yields {α : Type} (pre : State → Prop) (p : Parse α) (post : α → State → Prop) : Prop :=
  ∀ s, pre s → Ensures (fun r => post r.1 r.2) (p.run s)

/-- The token is no word with a dot. -/
def Undotted (s : State) : Prop := s.tok.Undotted

theorem ensures_significant (source : Source) (limit : Nat) (found : Token × Cursor)
    (h : found.1.Undotted) : Ensures (fun r => r.1.Undotted) (significant source limit found) := by
  induction limit generalizing found with
  | zero => exact ensures_ok h
  | succ limit ih =>
    obtain ⟨tok, cursor⟩ := found
    rw [significant]
    exact ensures_ite (ensures_bind (Lexer.ensures_next source cursor) fun r hr => ih r hr)
      (ensures_ok h)

theorem ensures_fetch (source : Source) (nested : Bool) (cursor : Cursor) :
    Ensures (fun r => r.1.Undotted) (fetch source nested cursor) := by
  rw [fetch]
  refine ensures_bind (Lexer.ensures_next source cursor) fun r hr => ?_
  exact ensures_ite (ensures_significant source _ r hr) (ensures_ok hr)

namespace Yields

variable {α β : Type} {pre : State → Prop} {post : α → State → Prop} {post' : β → State → Prop}

theorem bind {p : Parse α} {f : α → Parse β} (hp : Yields pre p post)
    (hf : ∀ a, Yields (post a) (f a) post') : Yields pre (p >>= f) post' := by
  intro s hs
  rw [StateT.run_bind]
  exact ensures_bind (hp s hs) fun r hr => hf r.1 r.2 hr

theorem pure {a : α} (h : ∀ s, pre s → post a s) : Yields pre (pure a) post :=
  fun s hs => ensures_ok (h s hs)

/-- Of a part about which nothing is asked. -/
theorem anything {p : Parse α} : Yields pre p fun _ _ => True :=
  fun _ _ _ _ => trivial

theorem weaken {pre' : State → Prop} {p : Parse α} (hp : Yields pre p post)
    (h : ∀ s, pre' s → pre s) : Yields pre' p post :=
  fun s hs => hp s (h s hs)

/-- What follows from the property of the state may be used. -/
theorem assume {c : Prop} {p : Parse α} (h : ∀ s, pre s → c) (hp : c → Yields pre p post) :
    Yields pre p post :=
  fun s hs => hp (h s hs) s hs

theorem current : Yields pre current fun tok s => tok = s.tok ∧ pre s :=
  fun _ hs => ensures_ok ⟨rfl, hs⟩

theorem fail {span : Span} {fault : SyntaxFault} : Yields pre (fail (α := α) span fault) post :=
  fun _ _ => ensures_error

theorem failHere {fault : SyntaxFault} : Yields pre (failHere (α := α) fault) post :=
  fun _ _ => ensures_error

theorem get : Yields pre get fun s s' => s = s' ∧ pre s' :=
  fun _ hs => ensures_ok ⟨rfl, hs⟩

theorem lift {P : α → Prop} {r : Except SyntaxError α} (h : Ensures P r) :
    Yields pre (liftM r) fun a s => P a ∧ pre s := by
  intro s hs
  exact ensures_bind h fun a ha => ensures_ok ⟨ha, hs⟩

theorem set {next : State} (h : ∀ s, pre s → Undotted next) :
    Yields pre (set next) fun _ => Undotted :=
  fun s hs => ensures_ok (h s hs)

theorem advance : Yields pre advance fun _ => Undotted := by
  refine get.bind fun s => (lift (ensures_fetch _ _ _)).bind ?_
  rintro ⟨tok, cursor⟩
  exact set fun _ h => h.1

theorem skipNewlines : Yields Undotted skipNewlines fun _ => Undotted := by
  refine get.bind fun s => ?_
  split
  · rintro _ ⟨rfl, hs⟩
    have hfound := ensures_significant s.source (s.cursor.rest.length + 1) (s.tok, s.cursor) hs
    refine (show Yields Undotted _ fun _ => Undotted from (lift hfound).bind ?_) s hs
    rintro ⟨tok, cursor⟩
    exact set fun _ h => h.1
  · exact pure fun _ h => h.2

theorem endItem {nested : Bool} : Yields pre (endItem nested) fun _ => Undotted := by
  rw [Parser.endItem]
  refine current.bind fun tok => ?_
  split
  · exact advance
  · next hkind =>
    refine pure fun s h => ?_
    rw [Undotted, ← h.1]
    exact Lexer.undotted_of_kind (by simp [hkind])
  · split
    · next hend =>
      refine pure fun s h => ?_
      rw [Undotted, ← h.1]
      refine Lexer.undotted_of_kind fun hkind => ?_
      simp [Token.isSymbol, hkind] at hend
    · exact failHere

theorem expect {symbol : String} {place : Expectation} :
    Yields pre (expect symbol place) fun _ => Undotted := by
  have hsees : Yields pre (sees symbol) fun _ _ => True := anything
  refine hsees.bind fun b => ?_
  split
  · exact advance
  · exact failHere

end Yields

/-- The attributes have names without dots. -/
def Named (attributes : Fields Attribute) : Prop :=
  ∀ e ∈ attributes, '.' ∉ e.2.name.toList

theorem Named.insert {attributes : Fields Attribute} (h : Named attributes) {a : Attribute}
    (ha : '.' ∉ a.name.toList) (name : String) : Named (Fields.insert name a attributes) := by
  intro e he
  rcases Fields.mem_insert he with rfl | he
  · exact ha
  · exact h e he

mutual

theorem yields_parseBody : ∀ (fuel : Nat) (opening : Option Span),
    Yields Undotted (parseBody fuel opening) fun body _ =>
      Named body.attributes ∧ ∀ b ∈ body.blocks, Named b.body.attributes
  | 0, _ => Yields.failHere
  | fuel + 1, opening => by
    rw [parseBody]
    refine (yields_parseDefinitions fuel opening.isSome [] nofun).bind ?_
    rintro ⟨attributes, blocks⟩
    exact Yields.get.bind fun s => Yields.pure fun s' h => h.2

theorem yields_parseDefinitions : ∀ (fuel : Nat) (nested : Bool) (prior : Fields Attribute),
    Named prior → Yields Undotted (parseDefinitions fuel nested prior) fun r _ =>
      Named r.1 ∧ ∀ b ∈ r.2, Named b.body.attributes
  | 0, _, _, _ => Yields.failHere
  | fuel + 1, nested, prior, hprior => by
    have hdone {pre : State → Prop} : Yields pre (pure (prior, [])) fun r _ =>
        Named r.1 ∧ ∀ b ∈ r.2, Named (Body.attributes (Block.body b)) :=
      Yields.pure fun _ _ => ⟨hprior, nofun⟩
    rw [parseDefinitions]
    refine Yields.skipNewlines.bind fun _ => Yields.current.bind fun name => ?_
    split
    · split
      · exact Yields.failHere
      · exact hdone
    · split
      · exact hdone
      · split
        · exact Yields.failHere
        · next hident =>
          refine Yields.assume (c := '.' ∉ name.text.toList) ?_ fun hname => ?_
          · rintro s ⟨rfl, hs⟩
            exact hs (not_not.1 hident)
          refine Yields.advance.bind fun _ => Yields.anything.bind fun isAttribute => ?_
          split
          · refine Yields.anything.bind fun _ => Yields.anything.bind fun e => ?_
            refine Yields.endItem.bind fun _ => ?_
            split
            · exact Yields.fail
            · exact yields_parseDefinitions fuel nested _ (hprior.insert hname _)
          · refine ((yields_parseBlock fuel nested name).weaken fun _ _ => trivial).bind fun b => ?_
            refine Yields.assume (fun _ h => h.1) fun hb => ?_
            have hmore := yields_parseDefinitions fuel nested prior hprior
            refine (hmore.weaken fun _ h => h.2).bind ?_
            rintro ⟨attributes, blocks⟩
            exact Yields.pure fun _ h => ⟨h.1, List.forall_mem_cons.2 ⟨hb, h.2⟩⟩

theorem yields_parseBlock : ∀ (fuel : Nat) (nested : Bool) (type : Token),
    Yields (fun _ => True) (parseBlock fuel nested type) fun b s =>
      Named b.body.attributes ∧ Undotted s
  | 0, _, _ => Yields.failHere
  | fuel + 1, nested, type => by
    rw [parseBlock]
    refine Yields.anything.bind fun labels => ?_
    refine Yields.anything.bind fun opening => ?_
    refine Yields.expect.bind fun _ => ?_
    refine (yields_parseBody fuel (some opening.span)).bind fun body => ?_
    refine Yields.assume (fun _ h => h.1) fun hbody => ?_
    refine Yields.anything.bind fun close => Yields.anything.bind fun _ => ?_
    exact Yields.endItem.bind fun _ => Yields.pure fun _ hs => ⟨hbody, hs⟩

end

/-- The attributes of the blocks of a file have names without dots. -/
theorem named_of_file {source : Source} {body : Body} (h : file source = .ok body) :
    ∀ b ∈ body.blocks, Named b.body.attributes := by
  obtain ⟨s, hs, hrun⟩ := bind_eq_ok.1 h
  obtain ⟨⟨_, s'⟩, hbody, rfl⟩ := map_eq_ok.1 hrun
  have hstart : Undotted s := by
    obtain ⟨⟨tok, cursor⟩, hfetch, hpure⟩ := bind_eq_ok.1 hs
    cases hpure
    exact ensures_fetch source _ _ _ hfetch
  exact (yields_parseBody _ none s hstart _ hbody).2

end Parser

namespace Module

/-- The local values have names without dots. -/
def Undotted (m : Module) : Prop :=
  ∀ name ∈ m.locals.keys, '.' ∉ name.toList

theorem undotted_of_locals {m m' : Module} (h : m.Undotted) (hm : m'.locals = m.locals) :
    m'.Undotted := by
  rwa [Undotted, hm]

theorem mem_declare {α : Type} {name : String} {a : α} {duplicate : α → Diagnostic}
    {fields : Fields α} {e : String × α} (h : e ∈ (declare name a duplicate fields).result) :
    e = (name, a) ∨ e ∈ fields := by
  rw [declare] at h
  split at h
  · exact .inr h
  · exact Fields.mem_insert h

theorem undotted_addLocals {attributes : List (String × Attribute)} {m : Module} (h : m.Undotted)
    (hnamed : Parser.Named attributes) : (m.addLocals attributes).result.Undotted := by
  induction attributes generalizing m with
  | nil => exact h
  | cons e rest ih =>
    obtain ⟨hname, hrest⟩ := List.forall_mem_cons.1 hnamed
    refine ih (fun name hmem => ?_) hrest
    obtain ⟨l, hl, rfl⟩ := List.mem_map.1 hmem
    rcases mem_declare hl with rfl | hl
    · exact hname
    · exact h _ (List.mem_map_of_mem hl)

theorem locals_addRead {α : Type} {m : Module} {add : Module → α → Report Module}
    {read : Report (Option α)} (h : ∀ a, (add m a).result.locals = m.locals) :
    (m.addRead add read).result.locals = m.locals := by
  rw [addRead, Report.bind_eq]
  split
  · exact h _
  · rfl

theorem locals_addResource (m : Module) (r : Resource) :
    (m.addResource r).result.locals = m.locals := by
  rw [addResource]
  split <;> rfl

theorem undotted_addBlock {library : Library} {m : Module} {b : Block} (h : m.Undotted)
    (hnamed : Parser.Named b.body.attributes) : (addBlock library m b).result.Undotted := by
  rw [addBlock]
  split
  · exact undotted_of_locals h (locals_addRead fun _ => rfl)
  split
  · exact undotted_addLocals h hnamed
  split
  · exact undotted_of_locals h (locals_addRead fun _ => rfl)
  split
  · exact undotted_of_locals h (locals_addRead fun _ => rfl)
  split
  · exact undotted_of_locals h (locals_addRead (locals_addResource m))
  split
  · exact undotted_of_locals h (locals_addRead (locals_addResource m))
  · exact h

theorem undotted_addBlocks {library : Library} {blocks : List Block} {m : Module} (h : m.Undotted)
    (hnamed : ∀ b ∈ blocks, Parser.Named b.body.attributes) :
    (addBlocks library m blocks).result.Undotted := by
  induction blocks generalizing m with
  | nil => exact h
  | cons b blocks ih =>
    obtain ⟨hb, hblocks⟩ := List.forall_mem_cons.1 hnamed
    exact ih (undotted_addBlock h hb) hblocks

end Module

/-- Every module of the tree has the property. -/
def ModuleTree.Everywhere (P : Module → Prop) (t : ModuleTree) : Prop :=
  ∀ path u, t.descendant? path = some u → P u.module

/-- Every module of the tree has local values without dots in their names. -/
def ModuleTree.Undotted (t : ModuleTree) : Prop :=
  ∀ path u, t.descendant? path = some u → u.module.Undotted

theorem ModuleTree.everywhere_of_children {P : Module → Prop} {t : ModuleTree} (hm : P t.module)
    (h : ∀ e ∈ t.children, e.2.Everywhere P) : t.Everywhere P := by
  rintro (_ | ⟨name, names⟩) u hu
  · cases hu
    exact hm
  · rw [descendant?, child?] at hu
    split at hu
    · next child hchild => exact h _ (Fields.mem_of_get? hchild) names u hu
    · cases hu

namespace Loader

variable {l : Loader} {P : Module → Prop}

theorem ensures_loadModule (dir : String) :
    Ensures (fun r => r.result.Undotted) (l.loadModule dir) := by
  have hbody (path : String) : Ensures
      (fun body => ∀ b ∈ body.blocks, Parser.Named b.body.attributes) (l.readBody path) := by
    refine ensures_then fun text => ?_
    intro body h
    cases hfile : Parser.file ⟨path, text⟩ with
    | error e => simp [hfile, Except.mapError] at h
    | ok b =>
      simp only [hfile, Except.mapError, Except.ok.injEq] at h
      exact h ▸ Parser.named_of_file hfile
  refine ensures_then fun paths => ?_
  refine ensures_bind (ensures_mapM hbody _) fun bodies hbodies => ensures_ok ?_
  refine Module.undotted_addBlocks nofun fun b hb => ?_
  obtain ⟨body, hmem, hb⟩ := List.mem_flatMap.1 hb
  exact hbodies body hmem b hb

theorem ensures_loadCalls {load : List String → String → Except LoadFault (Report ModuleTree)}
    (hload : ∀ path dir, Ensures (fun r => r.result.Everywhere P) (load path dir))
    (path : List String) (dir : String) (calls : List (String × ModuleCall)) :
    Ensures (fun r => ∀ e ∈ r.result, e.2.Everywhere P) (l.loadCalls load path dir calls) := by
  induction calls with
  | nil => exact ensures_ok nofun
  | cons call calls ih =>
    rw [loadCalls]
    split
    · exact ih
    · refine ensures_bind (hload _ _) fun t ht => ensures_bind ih fun rest hrest => ensures_ok ?_
      refine List.forall_mem_cons.2 ⟨?_, hrest⟩
      rintro (_ | ⟨name, names⟩) u hu
      · cases hu
        exact ht [] t.result rfl
      · exact ht (name :: names) u hu

theorem ensures_loadWithin (hP : ∀ dir, Ensures (fun r => P r.result) (l.loadModule dir))
    (fuel : Nat) (path : List String) (dir : String) :
    Ensures (fun r => r.result.Everywhere P) (l.loadWithin fuel path dir) := by
  induction fuel generalizing path dir with
  | zero => exact ensures_error
  | succ fuel ih =>
    rw [loadWithin]
    refine ensures_bind (hP dir) fun m hm => ?_
    refine ensures_bind (ensures_loadCalls ih path dir _) fun children hchildren => ensures_ok ?_
    exact ModuleTree.everywhere_of_children hm hchildren

/-- What holds of the module of every directory holds of all modules of a loaded tree. -/
theorem everywhere_of_load (hP : ∀ dir, Ensures (fun r => P r.result) (l.loadModule dir))
    {r : Report ModuleTree} (h : l.load = .ok r) : r.result.Everywhere P :=
  ensures_loadWithin hP _ _ _ r h

/-- No module of a loaded tree declares a local value with a dot in its name. -/
theorem undotted_of_load {r : Report ModuleTree} (h : l.load = .ok r) : r.result.Undotted :=
  everywhere_of_load ensures_loadModule h

end Loader

end StaticConfig
