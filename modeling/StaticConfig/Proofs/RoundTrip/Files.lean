import StaticConfig.Builtin.Definitions
import StaticConfig.Eval.Constant
import StaticConfig.Parser.Body
import StaticConfig.Proofs.Evaluation.Forms
import StaticConfig.Proofs.RoundTrip.Collections
import StaticConfig.Proofs.RoundTrip.Phrases

/-!
Expressions that stand for a value: they refer to nothing, and every evaluation gives the value
and reports nothing. The forms in which values are written keep this.
-/
namespace StaticConfig

open StaticConfig.Parser (textParts EntriesFor)

/-- The expression refers to nothing and always has this value, without diagnostics. -/
structure Denotes (e : Expr) (v : Value) : Prop where
  refs : ∀ bound, References.ofExpr bound e = .empty
  eval : ∀ s env, Eval.eval s env e = ⟨v, []⟩

namespace Denotes

open Eval

theorem literal (span : Span) (v : Value) : Denotes (.literal span v) v :=
  ⟨fun _ => rfl, fun _ _ => rfl⟩

theorem text (span : Span) (cs : List Char) :
    Denotes (.template span (textParts cs)) (.string (String.ofList cs)) := by
  cases cs with
  | nil => exact ⟨fun _ => rfl, fun _ _ => rfl⟩
  | cons c cs =>
    refine ⟨fun _ => rfl, fun s env => (eval_template_eq_clean ?_).2 ?_⟩
    · exact fun _ h => by cases h
    · have hparts : Gives (evalParts s env span [.text (String.ofList (c :: cs))])
          (some (String.ofList (c :: cs)), false) :=
        gives_parts_text.2 ⟨some "", false, rfl, by simp⟩
      exact ⟨_, _, hparts, rfl⟩

theorem references_append_empty : References.empty ++ References.empty = References.empty := rfl

theorem tuple {es : List Expr} {vs : List Value} (h : List.Forall₂ Denotes es vs) (span : Span) :
    Denotes (.tuple span es) (.tuple vs) := by
  constructor
  · intro bound
    show References.ofExprs bound es = .empty
    induction h with
    | nil => rfl
    | cons he _ ih => rw [References.ofExprs, he.refs, ih, references_append_empty]
  · intro s env
    refine eval_tuple_eq_clean.2 ⟨vs, ?_, rfl⟩
    induction h with
    | nil => rfl
    | @cons e v es vs he _ ih => exact evalAll_cons_eq_clean.2 ⟨v, vs, he.eval s env, ih, rfl⟩

/-- An item whose key has a known text adds the entry of that name. -/
theorem gives_items_key {s : Setting} {env : Env} {attrs : Fields Value} {name : String}
    {key value : Expr} {items : List (ObjectKey × Expr)} {v : Value} {more : Fields Value}
    (hkey : Denotes key (.string name)) (hvalue : Denotes value v)
    (h : Gives (evalItems s env (attrs.insert name v) items) (more, true, false)) :
    Gives (evalItems s env attrs ((.expr key, value) :: items)) (more, true, false) := by
  rw [evalItems, gives_bind]
  refine ⟨.string name, gives_report.2 (hkey.eval s env), gives_bind.2 ⟨some name, ?_, ?_⟩⟩
  · exact gives_ofExcept.2 rfl
  · refine gives_bind.2 ⟨v, gives_report.2 (hvalue.eval s env), gives_bind.2 ⟨_, h, rfl⟩⟩

theorem items {items : List (ObjectKey × Expr)} {attrs fields : Fields Value}
    (h : EntriesFor Denotes items fields) (hsorted : Fields.Sorted (attrs ++ fields)) (s : Setting)
    (env : Env) : Gives (evalItems s env attrs items) (attrs ++ fields, true, false) := by
  induction h generalizing attrs with
  | nil =>
    rw [List.append_nil]
    rfl
  | @cons item e items fields hitem _ ih =>
    obtain ⟨key, value⟩ := item
    obtain ⟨k, v⟩ := e
    obtain ⟨hkey, hvalue⟩ := hitem
    have hinsert : attrs.insert k v = attrs ++ [(k, v)] :=
      Fields.insert_of_forall_lt (Fields.forall_lt_of_sorted_append hsorted) v
    have happend : attrs ++ (k, v) :: fields = attrs ++ [(k, v)] ++ fields := by simp
    have hrest : Gives (evalItems s env (attrs.insert k v) items)
        (attrs ++ (k, v) :: fields, true, false) := by
      rw [happend] at hsorted ⊢
      rw [hinsert]
      exact ih hsorted
    cases hkey with
    | bare span => exact gives_items_name.2 ⟨v, hvalue.eval s env, hrest⟩
    | quoted span =>
      have htext : Denotes (.template span (textParts k.toList)) (.string k) := by
        simpa using Denotes.text span k.toList
      exact gives_items_key htext hvalue hrest

theorem refs_items {items : List (ObjectKey × Expr)} {fields : Fields Value}
    (h : EntriesFor Denotes items fields) (bound : List String) :
    References.ofItems bound items = .empty := by
  induction h with
  | nil => rfl
  | @cons item _ items _ hitem _ ih =>
    obtain ⟨key, value⟩ := item
    obtain ⟨hkey, hvalue⟩ := hitem
    cases hkey with
    | bare => rw [References.ofItems, hvalue.refs, ih, references_append_empty]
    | quoted span =>
      rw [References.ofItems, (Denotes.text span _).refs, hvalue.refs, ih, references_append_empty,
        references_append_empty]

theorem object {items : List (ObjectKey × Expr)} {fields : Fields Value}
    (h : EntriesFor Denotes items fields) (hsorted : Fields.Sorted fields) (span : Span) :
    Denotes (.object span items) (.object fields) := by
  refine ⟨refs_items h, fun s env => eval_object_eq_clean.2 ⟨fields, true, false, ?_, rfl⟩⟩
  have hsorted' : Fields.Sorted ([] ++ fields) := hsorted
  exact Denotes.items h hsorted' s env

end Denotes

/-- A constant is evaluated to what it denotes. -/
theorem Denotes.constant {e : Expr} {v : Value} (h : Denotes e v) (library : Library) :
    Eval.constant library e = ⟨v, []⟩ := by
  rw [Eval.constant, h.refs]
  exact h.eval _ _

/-!
A value that is written and read again comes back as its erasure, which keeps what the written
form tells: a list or a set is a tuple, a map is an object, and a null has no type.
-/

namespace Value

mutual

/-- The value as far as its written form determines it. -/
def erase : Value → Value
  | null _ => nothing
  | list _ items => tuple (eraseAll items)
  | set _ items => tuple (eraseAll items)
  | tuple items => tuple (eraseAll items)
  | map _ entries => object (eraseFields entries)
  | object attrs => object (eraseFields attrs)
  | sensitive v => sensitive v.erase
  | v => v

def eraseAll : List Value → List Value
  | [] => []
  | v :: vs => v.erase :: eraseAll vs

def eraseFields : List (String × Value) → List (String × Value)
  | [] => []
  | (k, v) :: rest => (k, v.erase) :: eraseFields rest

end

mutual

/-- The value is wholly known and unmarked, its texts are plain, its names stand in order, and its
numbers are whole and have digits that fit without their sign. -/
def writable : Value → Bool
  | null _ => true
  | unknown _ => false
  | bool _ => true
  | number (.int n) => decide (n ≠ Int64.minValue)
  | number (.float _) => false
  | string s => decide (Text.Quoted.Plain s.toList)
  | list _ items => writableAll items
  | set _ items => writableAll items
  | tuple items => writableAll items
  | map _ entries => decide (Fields.Sorted entries) && writableFields entries
  | object attrs => decide (Fields.Sorted attrs) && writableFields attrs
  | sensitive _ => false

def writableAll : List Value → Bool
  | [] => true
  | v :: vs => v.writable && writableAll vs

def writableFields : List (String × Value) → Bool
  | [] => true
  | (k, v) :: rest => decide (Text.Quoted.Plain k.toList) && v.writable && writableFields rest

end

theorem eraseFields_eq_mapValues (fields : Fields Value) :
    eraseFields fields = fields.mapValues erase := by
  induction fields with
  | nil => rfl
  | cons e rest ih =>
    rw [eraseFields, ih]
    rfl

theorem toList_bracketed (parts : List String) :
    (bracketed parts).toList = '[' :: (Parser.listed (parts.map String.toList) ++ [']']) := by
  simp [bracketed, Parser.listed]

/-- A written entry, without the newline. -/
def entryText (e : String × String) : String :=
  nameText e.1 ++ " = " ++ e.2

theorem toList_join_lines (es : Fields String) :
    (String.join ((es.map entryText).map fun l => l ++ "\n")).toList =
      Parser.lined (es.mapValues String.toList) := by
  rw [String.toList_join]
  induction es with
  | nil => rfl
  | cons e es ih =>
    rw [List.map_cons, List.map_cons, List.flatMap_cons, ih]
    simp [entryText, Parser.lined, Fields.mapValues]

theorem toList_braced (es : Fields String) :
    (braced (es.map entryText)).toList = Parser.embraced (es.mapValues String.toList) := by
  have hlines := toList_join_lines es
  cases es with
  | nil => rfl
  | cons e es =>
    rw [braced, if_neg (by simp), String.toList_append, String.toList_append, hlines]
    simp [Parser.embraced, Fields.mapValues]

theorem written_sequence {vs : List Value} {ws : List String} (hws : writeItems? vs = some ws)
    (h : List.Forall₂ (fun w u => Parser.Phrase w (Denotes · u)) (ws.map String.toList)
      (eraseAll vs)) :
    ∃ w, (writeItems? vs).map bracketed = some w ∧
      Parser.Phrase w.toList (Denotes · (tuple (eraseAll vs))) := by
  refine ⟨bracketed ws, by rw [hws]; rfl, ?_⟩
  rw [toList_bracketed]
  refine (Parser.Phrase.tuple h).mono ?_
  rintro _ ⟨span, es, rfl, hes⟩
  exact Denotes.tuple hes span

theorem written_mapping {fields : Fields Value} {es : Fields String}
    (hes : writeFields? fields = some (es.map entryText)) (hsorted : Fields.Sorted fields)
    (hplain : ∀ e ∈ es, Text.Quoted.Plain e.1.toList)
    (h : Fields.Related (fun w u => Parser.Phrase w (Denotes · u)) (es.mapValues String.toList)
      (eraseFields fields)) :
    ∃ w, (writeFields? fields).map braced = some w ∧
      Parser.Phrase w.toList (Denotes · (object (eraseFields fields))) := by
  refine ⟨braced (es.map entryText), by rw [hes]; rfl, ?_⟩
  rw [toList_braced]
  have hkeys : ∀ e ∈ es.mapValues String.toList, Text.Quoted.Plain e.1.toList := by
    intro e he
    obtain ⟨d, hd, rfl⟩ := List.mem_map.1 he
    exact hplain d hd
  refine (Parser.Phrase.object h hkeys).mono ?_
  rintro _ ⟨span, items, rfl, hitems⟩
  refine Denotes.object hitems ?_ span
  rwa [eraseFields_eq_mapValues, Fields.sorted_mapValues]

mutual

/-- A value that can be written is written as a phrase, and that denotes the erasure. -/
theorem written_of_writable : ∀ v : Value, v.writable → ∃ w, v.write? = some w ∧
    Parser.Phrase w.toList (Denotes · v.erase)
  | null _, _ => by
    refine ⟨"null", rfl, (Parser.Phrase.word rfl (by decide) (by decide)).mono ?_⟩
    rintro _ ⟨span, rfl⟩
    exact .literal span nothing
  | bool true, _ => by
    refine ⟨"true", rfl, (Parser.Phrase.word rfl (by decide) (by decide)).mono ?_⟩
    rintro _ ⟨span, rfl⟩
    exact .literal span _
  | bool false, _ => by
    refine ⟨"false", rfl, (Parser.Phrase.word rfl (by decide) (by decide)).mono ?_⟩
    rintro _ ⟨span, rfl⟩
    exact .literal span _
  | number (.int n), h => by
    refine ⟨_, rfl, (Parser.Phrase.whole (of_decide_eq_true h)).mono ?_⟩
    rintro _ ⟨span, rfl⟩
    exact .literal span _
  | string s, h => by
    have hspells := Text.Quoted.spells_encode (of_decide_eq_true h)
    refine ⟨_, rfl, ?_⟩
    rw [Parser.toList_quoted]
    refine (Parser.Phrase.quoted hspells).mono ?_
    rintro _ ⟨span, rfl⟩
    simpa [erase] using Denotes.text span s.toList
  | list _ items, h => by
    obtain ⟨ws, hws, hphrases⟩ := writtenAll_of_writable items h
    exact written_sequence hws hphrases
  | set _ items, h => by
    obtain ⟨ws, hws, hphrases⟩ := writtenAll_of_writable items h
    exact written_sequence hws hphrases
  | tuple items, h => by
    obtain ⟨ws, hws, hphrases⟩ := writtenAll_of_writable items h
    exact written_sequence hws hphrases
  | map _ entries, h => by
    obtain ⟨hsorted, hfields⟩ := Bool.and_eq_true_iff.1 h
    obtain ⟨es, hes, hplain, hphrases⟩ := writtenFields_of_writable entries hfields
    exact written_mapping hes (of_decide_eq_true hsorted) hplain hphrases
  | object attrs, h => by
    obtain ⟨hsorted, hfields⟩ := Bool.and_eq_true_iff.1 h
    obtain ⟨es, hes, hplain, hphrases⟩ := writtenFields_of_writable attrs hfields
    exact written_mapping hes (of_decide_eq_true hsorted) hplain hphrases

theorem writtenAll_of_writable : ∀ vs : List Value, writableAll vs → ∃ ws,
    writeItems? vs = some ws ∧ List.Forall₂ (fun w u => Parser.Phrase w (Denotes · u))
      (ws.map String.toList) (eraseAll vs)
  | [], _ => ⟨[], rfl, .nil⟩
  | v :: vs, h => by
    obtain ⟨hv, hvs⟩ := Bool.and_eq_true_iff.1 h
    obtain ⟨w, hw, hphrase⟩ := written_of_writable v hv
    obtain ⟨ws, hws, hphrases⟩ := writtenAll_of_writable vs hvs
    exact ⟨w :: ws, by simp only [writeItems?, hw, hws], .cons hphrase hphrases⟩

theorem writtenFields_of_writable : ∀ fields : Fields Value, writableFields fields →
    ∃ es : Fields String, writeFields? fields = some (es.map entryText) ∧
      (∀ e ∈ es, Text.Quoted.Plain e.1.toList) ∧
      Fields.Related (fun w u => Parser.Phrase w (Denotes · u)) (es.mapValues String.toList)
        (eraseFields fields)
  | [], _ => ⟨[], rfl, nofun, .nil⟩
  | (k, v) :: rest, h => by
    obtain ⟨hkv, hrest⟩ := Bool.and_eq_true_iff.1 h
    obtain ⟨hk, hv⟩ := Bool.and_eq_true_iff.1 hkv
    obtain ⟨w, hw, hphrase⟩ := written_of_writable v hv
    obtain ⟨es, hes, hplain, hphrases⟩ := writtenFields_of_writable rest hrest
    refine ⟨(k, w) :: es, ?_, List.forall_mem_cons.2 ⟨of_decide_eq_true hk, hplain⟩,
      .cons hphrase hphrases⟩
    simp only [writeFields?, hw, hes]
    rfl

end

end Value

end StaticConfig

/-!
Whole sources: a phrase alone is an expression, and lines that give names to phrases are a body
with these attributes and no blocks. The names have to come in ascending order, so that the
attributes are kept in the order of the lines.
-/
namespace StaticConfig.Parser

open Lexer (Lexes)

variable {β : Type} {Q : Expr → β → Prop} {fuel : Nat}

/-- The parser starts before the text of its source. -/
theorem exists_start {cs rest : List Char} {kind : TokenKind} {text : String} (source : Source)
    (hlex : Lexes cs kind text rest) (hcs : source.text.toList = cs) :
    ∃ s, start source (.ofSource source) 0 = .ok s ∧ At 0 cs s := by
  obtain ⟨span, after, hnext, -⟩ := hlex source 0 1 1
  refine ⟨⟨source, after, ⟨kind, text, span⟩, 0⟩, ?_, rfl, 0, 1, 1, hnext⟩
  have hfetch : fetch source false (.ofSource source) = .ok (⟨kind, text, span⟩, after) := by
    rw [fetch, Cursor.ofSource, hcs, hnext]
    rfl
  rw [start, show decide (0 < 0) = false from rfl, hfetch]
  rfl

theorem expression_of_phrase {w : String} {P : Expr → Prop} (h : Phrase w.toList P)
    (file : String) : ∃ e, expression ⟨file, w⟩ = .ok e ∧ P e := by
  have hopens : Opens closers w.toList := by simpa using h.opens (Stop.done 0)
  obtain ⟨kind, text, rest, hlex, hkind, -⟩ := hopens
  obtain ⟨s, hstart, hs⟩ := exists_start ⟨file, w⟩ hlex rfl
  have hruns : Runs 0 w.toList (do
      skipNewlines
      let e ← parseExpr (depthBound ⟨file, w⟩)
      skipNewlines
      if (← current).kind ≠ .eof then failHere .trailingToken
      pure e) 0 [] P := by
    have hfuel : 16 * w.toList.length ≤ depthBound ⟨file, w⟩ := by
      rw [String.length_toList]
      show 16 * w.length ≤ 16 * (w.length + 2)
      omega
    have hexpr := h.runs hfuel (Stop.done 0)
    rw [List.append_nil] at hexpr
    refine (Runs.skipNewlines hlex hkind (.inl rfl)).bind fun _ _ => ?_
    refine hexpr.bind fun e he => ?_
    refine (Runs.skipNewlines Lexes.eof (by decide) (.inl rfl)).bind fun _ _ => ?_
    refine (Runs.current Lexes.eof).bind ?_
    rintro _ ⟨span, rfl⟩
    exact Runs.pure he
  obtain ⟨e, s', hrun, -, he⟩ := hruns s hs
  refine ⟨e, ?_, he⟩
  rw [expression, hstart]
  exact congrArg (Except.map Prod.fst) hrun

/-- Lines that give names to written expressions. -/
def defined : Fields (List Char) → List Char
  | [] => []
  | (k, w) :: more => k.toList ++ ' ' :: '=' :: ' ' :: (w ++ '\n' :: defined more)

theorem length_defined_cons (k : String) (w : List Char) (more : Fields (List Char)) :
    (defined ((k, w) :: more)).length = k.toList.length + w.length + 4 + (defined more).length := by
  simp only [defined, List.length_append, List.length_cons]
  omega

/-- Attributes whose expressions stand for the entries of the same names. -/
def AttributesFor (Q : Expr → β → Prop) (attributes : Fields Attribute) (bs : Fields β) : Prop :=
  Fields.Related (fun a b => Q a.expr b) attributes bs

theorem lexes_defined {es : Fields (List Char)} (h : ∀ e ∈ es, Text.isIdentifier e.1) :
    ∃ kind text rest, Lexes (defined es) kind text rest ∧ kind ≠ .newline := by
  match es with
  | [] => exact ⟨.eof, "", [], Lexes.eof, by decide⟩
  | (k, w) :: more =>
    have hlex := Lexes.ident (h _ List.mem_cons_self)
      (Stop.equals 0 (w ++ '\n' :: defined more)).breaks
    exact ⟨.ident, k, _, hlex, by decide⟩

theorem runs_parseDefinitions {es : Fields (List Char)} {bs : Fields β} {prior : Fields Attribute}
    (h : Fields.Related (fun w b => Phrase w (Q · b)) es bs)
    (hnames : ∀ e ∈ es, Text.isIdentifier e.1)
    (hsorted : (prior.keys ++ es.keys).Pairwise (· < ·))
    (hfuel : 16 * (defined es).length + 1 ≤ fuel) :
    Runs 0 (defined es) (parseDefinitions fuel false prior) 0 []
      fun r => ∃ new, r = (prior ++ new, []) ∧ AttributesFor Q new bs := by
  induction h generalizing fuel prior with
  | nil =>
    obtain ⟨fuel, rfl⟩ : ∃ k, fuel = k + 1 := ⟨fuel - 1, by omega⟩
    rw [parseDefinitions]
    refine (Runs.skipNewlines Lexes.eof (by decide) (.inl rfl)).bind fun _ _ => ?_
    refine (Runs.current Lexes.eof).bind ?_
    rintro _ ⟨span, rfl⟩
    exact Runs.pure ⟨[], by simp, .nil⟩
  | @cons k w b es bs hw hrest ih =>
    obtain ⟨fuel, rfl⟩ : ∃ k, fuel = k + 1 := ⟨fuel - 1, by omega⟩
    obtain ⟨hname, hnames⟩ := List.forall_mem_cons.1 hnames
    rw [length_defined_cons] at hfuel
    have hlex := Lexes.ident hname (Stop.equals 0 (w ++ '\n' :: defined es)).breaks
    have hstop : Stop 0 ('\n' :: defined es) := .newline _
    obtain ⟨kind, text, rest, hnext, -⟩ := lexes_defined hnames
    rw [parseDefinitions, defined]
    refine (Runs.skipNewlines hlex (by decide) (.inl rfl)).bind fun _ _ => ?_
    refine (Runs.current hlex).bind ?_
    rintro _ ⟨span, rfl⟩
    refine (Runs.advance hlex (Stop.equals 0 _).seen).bind fun _ _ => ?_
    refine (Runs.sees (equals_ahead _) "=").bind ?_
    rintro _ rfl
    refine (Runs.advance (equals_ahead _) (hw.opens hstop).seen.blank).bind fun _ _ => ?_
    refine (hw.runs (by omega) hstop).blank.bind fun e he => ?_
    have hend : Runs 0 ('\n' :: defined es) (endItem false) 0 (defined es) fun _ => True := by
      rw [endItem]
      refine (Runs.current (Lexes.newline _)).bind ?_
      rintro _ ⟨span', rfl⟩
      exact Runs.advance (Lexes.newline _) ⟨kind, text, rest, hnext, .inl rfl⟩
    refine hend.bind fun _ _ => ?_
    have hlt : ∀ e ∈ prior, e.1 < k := fun e he =>
      (List.pairwise_append.1 hsorted).2.2 e.1 (List.mem_map_of_mem he) k List.mem_cons_self
    have hfresh : Fields.get? k prior = none := by
      rw [Option.eq_none_iff_forall_not_mem]
      exact fun a ha => String.lt_irrefl k (hlt _ (Fields.mem_of_get? ha))
    simp only [hfresh, Fields.insert_of_forall_lt hlt]
    refine (ih hnames (by simpa [Fields.keys] using hsorted) (by omega)).mono ?_
    rintro _ ⟨new, rfl, hnew⟩
    exact ⟨(k, ⟨span.through e.span, span, k, e⟩) :: new, by simp, .cons he hnew⟩

/-- Lines of definitions are a body with these attributes alone. -/
theorem file_of_defined {es : Fields (List Char)} {bs : Fields β} {t : String}
    (h : Fields.Related (fun w b => Phrase w (Q · b)) es bs)
    (hnames : ∀ e ∈ es, Text.isIdentifier e.1) (hsorted : Fields.Sorted es)
    (ht : t.toList = defined es) (name : String) :
    ∃ body, file ⟨name, t⟩ = .ok body ∧ body.blocks = [] ∧
      AttributesFor Q body.attributes bs := by
  obtain ⟨kind, text, rest, hlex, -⟩ := lexes_defined hnames
  obtain ⟨s, hstart, hs⟩ := exists_start ⟨name, t⟩ hlex ht
  obtain ⟨fuel, hfuel, hlen⟩ :
      ∃ fuel, depthBound ⟨name, t⟩ = fuel + 1 ∧ 16 * (defined es).length + 1 ≤ fuel := by
    refine ⟨16 * (t.length + 2) - 1, ?_, ?_⟩
    · show 16 * (t.length + 2) = _
      omega
    · rw [← ht, String.length_toList]
      omega
  have hruns : Runs 0 (defined es) (parseBody (fuel + 1) none) 0 []
      fun body => body.blocks = [] ∧ AttributesFor Q body.attributes bs := by
    rw [parseBody]
    have hpairwise : (Fields.keys ([] : Fields Attribute) ++ es.keys).Pairwise (· < ·) :=
      (Fields.sorted_iff_keys es).1 hsorted
    refine (runs_parseDefinitions h hnames hpairwise hlen).bind ?_
    rintro _ ⟨new, rfl, hnew⟩
    exact Runs.get fun s _ => Runs.pure ⟨rfl, hnew⟩
  obtain ⟨body, s', hrun, -, hblocks, hattributes⟩ := hruns s hs
  refine ⟨body, ?_, hblocks, hattributes⟩
  rw [file, hstart, hfuel]
  exact congrArg (Except.map Prod.fst) hrun

end StaticConfig.Parser

/-!
Writing a value and reading the text gives the value back, up to what its written form tells. This
holds for expressions and for lines of definitions.
-/
namespace StaticConfig.Builtin.Definitions

open StaticConfig.Parser (Phrase AttributesFor)

end StaticConfig.Builtin.Definitions
