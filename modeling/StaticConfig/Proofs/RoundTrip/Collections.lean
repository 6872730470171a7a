import StaticConfig.Proofs.Fields
import StaticConfig.Proofs.RoundTrip.Phrases

/-!
Written tuples and objects are phrases if their parts are. Between square brackets a newline does
not count and items are separated by commas. Between braces a newline ends each entry, whatever
brackets the object itself stands in.
-/
namespace StaticConfig.Parser

open Lexer (Lexes Breaks)

variable {β : Type} {Q : Expr → β → Prop} {n fuel : Nat} {cs tail : List Char}

/-- Written items with the separators between them. -/
def listed (ws : List (List Char)) : List Char :=
  [',', ' '].intercalate ws

/-- What stands behind an item that other items follow, up to the bracket and behind it. -/
def afterItem (tail : List Char) : List (List Char) → List Char
  | [] => ']' :: tail
  | w :: ws => ',' :: ' ' :: (listed (w :: ws) ++ ']' :: tail)

theorem listed_cons_append (w : List Char) (ws : List (List Char)) (tail : List Char) :
    listed (w :: ws) ++ ']' :: tail = w ++ afterItem tail ws := by
  cases ws <;> simp [listed, List.intercalate, afterItem]

theorem length_listed_cons_cons (w w' : List Char) (ws : List (List Char)) :
    (listed (w :: w' :: ws)).length = w.length + 2 + (listed (w' :: ws)).length := by
  simp only [listed, List.intercalate_cons_cons, List.length_append, List.length_cons,
    List.length_nil]

theorem length_le_listed (w : List Char) (ws : List (List Char)) :
    w.length ≤ (listed (w :: ws)).length := by
  cases ws with
  | nil => simp [listed]
  | cons w' ws =>
    rw [length_listed_cons_cons]
    omega

theorem stop_afterItem (tail : List Char) (ws : List (List Char)) : Stop n (afterItem tail ws) := by
  cases ws with
  | nil => exact .bracket _ _
  | cons w ws => exact .comma _ _

theorem opens_listed {ws : List (List Char)} {bs : List β}
    (h : List.Forall₂ (fun w b => Phrase w (Q · b)) ws bs) (hne : ws ≠ []) :
    Opens closers (listed ws ++ ']' :: tail) := by
  cases h with
  | nil => exact absurd rfl hne
  | @cons w _ ws _ hw _ =>
    rw [listed_cons_append]
    exact hw.opens (stop_afterItem (n := 0) tail ws)

theorem runs_parseItems {ws : List (List Char)} {bs : List β}
    (h : List.Forall₂ (fun w b => Phrase w (Q · b)) ws bs)
    (hfuel : 16 * (listed ws).length + 1 ≤ fuel) :
    Runs (n + 1) (listed ws ++ ']' :: tail) (parseItems fuel) (n + 1) (']' :: tail)
      fun items => List.Forall₂ Q items bs := by
  induction h generalizing fuel with
  | nil =>
    obtain ⟨fuel, rfl⟩ : ∃ k, fuel = k + 1 := ⟨fuel - 1, by omega⟩
    rw [parseItems]
    refine (Runs.sees (Lexes.closeBracket tail) "]").bind ?_
    rintro _ rfl
    exact Runs.pure .nil
  | @cons w b ws bs hw hrest ih =>
    obtain ⟨fuel, rfl⟩ : ∃ k, fuel = k + 1 := ⟨fuel - 1, by omega⟩
    have hpos : 0 < w.length := hw.pos
    have hlen : w.length ≤ (listed (w :: ws)).length := length_le_listed w ws
    rw [parseItems, listed_cons_append]
    refine ((hw.opens (stop_afterItem (n := n + 1) tail ws)).sees (by decide)).bind ?_
    rintro _ rfl
    refine (hw.runs (by omega) (stop_afterItem tail ws)).bind fun item hitem => ?_
    cases ws with
    | nil =>
      refine (Runs.current (Lexes.closeBracket tail)).bind ?_
      rintro _ ⟨span, rfl⟩
      have hfuel' : 16 * (listed []).length + 1 ≤ fuel := by
        show 0 + 1 ≤ fuel
        omega
      exact (ih hfuel').bind fun items hitems => Runs.pure (.cons hitem hitems)
    | cons w' ws =>
      rw [length_listed_cons_cons] at hfuel
      refine (Runs.current (Lexes.comma _)).bind ?_
      rintro _ ⟨span, rfl⟩
      have hseen : Seen (n + 1) (' ' :: (listed (w' :: ws) ++ ']' :: tail)) :=
        (opens_listed hrest (by simp)).seen.blank
      refine (Runs.advance (Lexes.comma _) hseen).bind fun _ _ => ?_
      exact (ih (by omega)).blank.bind fun items hitems => Runs.pure (.cons hitem hitems)

/-- A tuple of phrases is a phrase. -/
theorem Phrase.tuple {ws : List (List Char)} {bs : List β}
    (h : List.Forall₂ (fun w b => Phrase w (Q · b)) ws bs) :
    Phrase ('[' :: (listed ws ++ [']'])) fun e => ∃ span items, e = .tuple span items ∧
      List.Forall₂ Q items bs := by
  refine of_primary (Nat.succ_pos _) (fun {n tail} _ => ?_) fun {fuel n tail} hfuel hstop => ?_
  · exact ⟨.symbol, "[", _, Lexes.openBracket _, by decide, fun _ => by decide,
      fun h => by cases h⟩
  · rw [List.length_cons, List.length_append] at hfuel
    obtain ⟨fuel, rfl⟩ : ∃ k, fuel = k + 1 := ⟨fuel - 1, by omega⟩
    rw [List.cons_append, List.append_assoc, List.singleton_append, parsePrimary]
    refine (Runs.current (Lexes.openBracket _)).bind ?_
    rintro _ ⟨span, rfl⟩
    have hfirst : Opens [] (listed ws ++ ']' :: tail) := by
      by_cases hnil : ws = []
      · subst hnil
        exact ⟨.symbol, "]", tail, Lexes.closeBracket tail, by decide,
          (fun _ h => by cases h), fun h => by cases h⟩
      · exact (opens_listed h hnil).mono (List.nil_subset _)
    show Runs _ _ (parseTuple (fuel + 1) span) _ _ _
    rw [parseTuple]
    refine (Runs.nest (· + 1)).bind fun _ _ => ?_
    refine (Runs.advance (Lexes.openBracket _) hfirst.seen).bind fun _ _ => ?_
    refine hfirst.seesFor.bind ?_
    rintro _ rfl
    refine (runs_parseItems h (by omega)).bind fun items hitems => ?_
    refine (Runs.nest (· - 1)).bind fun _ _ => ?_
    refine (Runs.current (Lexes.closeBracket tail)).bind ?_
    rintro _ ⟨span', rfl⟩
    refine (Runs.advance (Lexes.closeBracket tail) hstop.seen).bind fun _ _ => ?_
    exact Runs.pure ⟨_, items, rfl, hitems⟩

/-- The key stands for the name, written bare or as a quoted template. -/
inductive KeyFor : ObjectKey → String → Prop
  | bare (span : Span) (k : String) : KeyFor (.name span k) k
  | quoted (span : Span) (k : String) : KeyFor (.expr (.template span (textParts k.toList))) k

/-- Written entries, one on each line. -/
def lined : Fields (List Char) → List Char
  | [] => []
  | (k, w) :: more => (Value.nameText k).toList ++ ' ' :: '=' :: ' ' :: (w ++ '\n' :: lined more)

theorem lined_cons_append (k : String) (w : List Char) (more : Fields (List Char))
    (tail : List Char) : lined ((k, w) :: more) ++ tail =
      (Value.nameText k).toList ++ ' ' :: '=' :: ' ' :: (w ++ '\n' :: (lined more ++ tail)) := by
  simp [lined]

theorem length_lined_cons (k : String) (w : List Char) (more : Fields (List Char)) :
    (lined ((k, w) :: more)).length =
      (Value.nameText k).toList.length + w.length + 4 + (lined more).length := by
  simp only [lined, List.length_append, List.length_cons]
  omega

theorem toList_quoted (k : String) :
    (Text.quoted k).toList = '"' :: (Text.Quoted.encode k.toList ++ ['"']) := by
  simp [Text.quoted]

theorem toList_nameText (k : String) :
    Text.isIdentifier k ∧ (Value.nameText k).toList = k.toList ∨
      (Value.nameText k).toList = '"' :: (Text.Quoted.encode k.toList ++ ['"']) := by
  rw [Value.nameText]
  split
  · next hname => exact .inl ⟨hname, rfl⟩
  · exact .inr (toList_quoted k)

/-- What stands where a key or the end of an object is expected is no newline, and does not look
like the start of a for expression. -/
def KeyAhead (cs : List Char) : Prop :=
  ∃ kind text rest, Lexes cs kind text rest ∧ kind ≠ .newline ∧
    (kind = .ident → ∃ text' rest', Lexes rest .symbol text' rest')

theorem equals_ahead (cs : List Char) : Lexes (' ' :: '=' :: ' ' :: cs) .symbol "=" (' ' :: cs) :=
  (Lexes.equals cs).blank

theorem lexes_nameText {k : String} (hk : Text.Quoted.Plain k.toList) (cs : List Char) :
    ∃ kind text, Lexes ((Value.nameText k).toList ++ ' ' :: '=' :: ' ' :: cs) kind text
      (' ' :: '=' :: ' ' :: cs) ∧ kind ≠ .newline ∧ kind ≠ .symbol := by
  rcases toList_nameText k with ⟨hname, hw⟩ | hw <;> rw [hw]
  · exact ⟨.ident, k, Lexes.ident hname (Stop.equals 0 cs).breaks, by decide, by decide⟩
  · refine ⟨.string, String.ofList (Text.Quoted.encode k.toList), ?_, by decide, by decide⟩
    simpa using Lexes.string (Text.Quoted.spells_encode hk) (' ' :: '=' :: ' ' :: cs)

theorem runs_parseKey {k : String} (hk : Text.Quoted.Plain k.toList)
    (hfuel : 16 * (Value.nameText k).toList.length + 1 ≤ fuel) :
    Runs n ((Value.nameText k).toList ++ ' ' :: '=' :: ' ' :: cs) (parseKey fuel) n
      (' ' :: '=' :: ' ' :: cs) (KeyFor · k) := by
  obtain ⟨fuel, rfl⟩ : ∃ k, fuel = k + 1 := ⟨fuel - 1, by omega⟩
  rw [parseKey]
  rcases toList_nameText k with ⟨hname, hw⟩ | hw <;> rw [hw] at hfuel ⊢
  · have hlex := Lexes.ident hname (Stop.equals 0 cs).breaks
    refine (Runs.current hlex).bind ?_
    rintro _ ⟨span, rfl⟩
    refine (Runs.peek hlex (equals_ahead cs)).bind ?_
    rintro _ ⟨span', rfl⟩
    refine Runs.bind (P := (· = true)) (Runs.pure rfl) ?_
    rintro _ rfl
    refine (Runs.advance hlex (Stop.equals n cs).seen).bind fun _ _ => ?_
    exact Runs.pure (.bare span k)
  · have hphrase := Phrase.quoted (Text.Quoted.spells_encode hk)
    have hlex := Lexes.string (Text.Quoted.spells_encode hk) (' ' :: '=' :: ' ' :: cs)
    have hrun := hphrase.runs (show _ ≤ fuel by omega) (Stop.equals n cs)
    rw [List.cons_append, List.append_assoc, List.singleton_append] at hrun ⊢
    refine (Runs.current hlex).bind ?_
    rintro _ ⟨span, rfl⟩
    refine Runs.bind (P := (· = false)) (Runs.pure rfl) ?_
    rintro _ rfl
    refine hrun.bind ?_
    rintro _ ⟨span', rfl⟩
    exact Runs.pure (.quoted span' k)

theorem keyAhead_lined {es : Fields (List Char)} (h : ∀ e ∈ es, Text.Quoted.Plain e.1.toList)
    (tail : List Char) : KeyAhead (lined es ++ '\x7d' :: tail) := by
  match es with
  | [] => exact ⟨.symbol, "\x7d", tail, Lexes.closeBrace tail, by decide, nofun⟩
  | (k, w) :: more =>
    obtain ⟨kind, text, hlex, hkind, -⟩ := lexes_nameText (h _ List.mem_cons_self)
      (w ++ '\n' :: (lined more ++ '\x7d' :: tail))
    rw [lined_cons_append]
    exact ⟨kind, text, _, hlex, hkind, fun _ => ⟨_, _, equals_ahead _⟩⟩

/-- The items of an object that stand for the entries. -/
def EntriesFor (Q : Expr → β → Prop) (items : List (ObjectKey × Expr)) (bs : Fields β) : Prop :=
  List.Forall₂ (fun item b => KeyFor item.1 b.1 ∧ Q item.2 b.2) items bs

theorem runs_parseEntries {es : Fields (List Char)} {bs : Fields β} {start : List Char}
    (h : Fields.Related (fun w b => Phrase w (Q · b)) es bs)
    (hkeys : ∀ e ∈ es, Text.Quoted.Plain e.1.toList)
    (hfuel : 16 * (lined es).length + 1 ≤ fuel)
    (hstart : start = lined es ++ '\x7d' :: tail ∨ start = '\n' :: (lined es ++ '\x7d' :: tail)) :
    Runs 0 start (parseEntries fuel) 0 ('\x7d' :: tail) (EntriesFor Q · bs) := by
  induction h generalizing fuel start with
  | nil =>
    obtain ⟨fuel, rfl⟩ : ∃ k, fuel = k + 1 := ⟨fuel - 1, by omega⟩
    rw [parseEntries]
    refine (Runs.skipNewlines (Lexes.closeBrace tail) (by decide) hstart).bind fun _ _ => ?_
    refine (Runs.sees (Lexes.closeBrace tail) "\x7d").bind ?_
    rintro _ rfl
    exact Runs.pure .nil
  | @cons k w b es bs hw hrest ih =>
    obtain ⟨fuel, rfl⟩ : ∃ k, fuel = k + 1 := ⟨fuel - 1, by omega⟩
    obtain ⟨hk, hkeys⟩ := List.forall_mem_cons.1 hkeys
    rw [length_lined_cons] at hfuel
    rw [lined_cons_append] at hstart
    have hvalue : Opens closers (w ++ '\n' :: (lined es ++ '\x7d' :: tail)) :=
      hw.opens (Stop.newline _)
    obtain ⟨kind, text, hlex, hkind, hsymbol⟩ := lexes_nameText hk
      (w ++ '\n' :: (lined es ++ '\x7d' :: tail))
    rw [parseEntries]
    refine (Runs.skipNewlines hlex hkind hstart).bind fun _ _ => ?_
    refine (Runs.sees_of_ne hlex (absurd · hsymbol)).bind ?_
    rintro _ rfl
    have hname : 16 * (Value.nameText k).toList.length + 1 ≤ fuel := by omega
    refine (runs_parseKey hk hname).bind fun key hkey => ?_
    refine (Runs.current (equals_ahead _)).bind ?_
    rintro _ ⟨span, rfl⟩
    refine (Runs.advance (equals_ahead _) hvalue.seen.blank).bind fun _ _ => ?_
    refine (hw.runs (by omega) (Stop.newline _)).blank.bind fun e he => ?_
    refine (Runs.current (Lexes.newline _)).bind ?_
    rintro _ ⟨span', rfl⟩
    exact (ih hkeys (by omega) (.inr rfl)).bind fun items hitems =>
      Runs.pure (.cons ⟨hkey, he⟩ hitems)

/-- A written object. Without entries nothing stands between the braces. -/
def embraced (es : Fields (List Char)) : List Char :=
  '\x7b' :: (if es.isEmpty then [] else ['\n']) ++ lined es ++ ['\x7d']

/-- An object whose values are phrases is a phrase. -/
theorem Phrase.object {es : Fields (List Char)} {bs : Fields β}
    (h : Fields.Related (fun w b => Phrase w (Q · b)) es bs)
    (hkeys : ∀ e ∈ es, Text.Quoted.Plain e.1.toList) :
    Phrase (embraced es) fun e => ∃ span items, e = .object span items ∧
      EntriesFor Q items bs := by
  refine of_primary (Nat.succ_pos _) (fun {n tail} _ => ?_) fun {fuel n tail} hfuel hstop => ?_
  · exact ⟨.symbol, "\x7b", _, Lexes.openBrace _, by decide, fun _ => by decide, nofun⟩
  · have hlen : (lined es).length + 2 ≤ (embraced es).length := by
      simp [embraced]
    obtain ⟨fuel, rfl⟩ : ∃ k, fuel = k + 1 := ⟨fuel - 1, by omega⟩
    obtain ⟨kind, text, rest, hlex, hkind, hahead⟩ := keyAhead_lined hkeys tail
    obtain ⟨start, hembraced, hstart⟩ : ∃ start, embraced es ++ tail = '\x7b' :: start ∧
        (start = lined es ++ '\x7d' :: tail ∨ start = '\n' :: (lined es ++ '\x7d' :: tail)) := by
      rw [embraced]
      cases es with
      | nil => exact ⟨_, rfl, .inl rfl⟩
      | cons e es => exact ⟨_, by simp, .inr rfl⟩
    have hseen : Seen 0 start := by
      rcases hstart with rfl | rfl
      · exact Seen.of_lexes hlex hkind
      · exact (Stop.newline _).seen
    rw [hembraced, parsePrimary]
    refine (Runs.current (Lexes.openBrace _)).bind ?_
    rintro _ ⟨span, rfl⟩
    show Runs _ _ (parseObject (fuel + 1) span) _ _ _
    rw [parseObject]
    refine Runs.get fun s hn => ?_
    subst hn
    refine (Runs.nest fun _ => 0).bind fun _ _ => ?_
    refine (Runs.advance (Lexes.openBrace _) hseen).bind fun _ _ => ?_
    refine (Runs.skipNewlines hlex hkind hstart).bind fun _ _ => ?_
    have hentries : Runs 0 (lined es ++ '\x7d' :: tail) (do
        let items ← parseEntries fuel
        modify fun s' => { s' with nesting := s.nesting }
        let close ← current
        advance
        pure (Expr.object (span.through close.span) items)) s.nesting tail
        fun e => ∃ span items, e = Expr.object span items ∧ EntriesFor Q items bs := by
      refine (runs_parseEntries h hkeys (by omega) (.inl rfl)).bind fun items hitems => ?_
      refine (Runs.nest fun _ => s.nesting).bind fun _ _ => ?_
      refine (Runs.current (Lexes.closeBrace tail)).bind ?_
      rintro _ ⟨span', rfl⟩
      refine (Runs.advance (Lexes.closeBrace tail) hstop.seen).bind fun _ _ => ?_
      exact Runs.pure ⟨_, items, rfl, hitems⟩
    refine (Runs.seesWord hlex "for").bind ?_
    rintro _ rfl
    split
    · next hfor =>
      have hident : kind = .ident := eq_of_beq (Bool.and_eq_true_iff.1 hfor).1
      obtain ⟨text', rest', hnext⟩ := hahead hident
      refine (Runs.peek hlex hnext).bind ?_
      rintro _ ⟨span', rfl⟩
      refine Runs.bind (P := (· = false)) (Runs.pure rfl) ?_
      rintro _ rfl
      exact hentries
    · refine Runs.bind (P := (· = false)) (Runs.pure rfl) ?_
      rintro _ rfl
      exact hentries

end StaticConfig.Parser
