import StaticConfig.Proofs.Reading.Lossless
import StaticConfig.Proofs.Reading.Parsed
import StaticConfig.Proofs.RoundTrip.Files

/-!
What a file keeps of its source. A parser goes through the tokens of a source one after the other,
and it is done with a file when it has reached the end token, so what it ignores is what the tokens
lose.
-/
namespace StaticConfig.Parser

open StaticConfig.Except

/-- The state stands at a token of the source, to which the lexer has come from the start. -/
def Follows (source : Source) (s : State) : Prop :=
  s.source = source ∧ Lexer.Reached source s.tok s.cursor

section Steps

variable {source : Source} {t t' : Token} {pos after : Cursor}

theorem reached_of_significant {limit : Nat} (h : Lexer.Reached source t pos)
    (hfound : significant source limit (t, pos) = .ok (t', after)) :
    Lexer.Reached source t' after := by
  induction limit generalizing t pos with
  | zero =>
    cases hfound
    exact h
  | succ limit ih =>
    rw [significant] at hfound
    split at hfound
    · obtain ⟨⟨next, behind⟩, hnext, hrest⟩ := bind_eq_ok.1 hfound
      exact ih (h.next hnext) hrest
    · cases hfound
      exact h

theorem reached_of_fetch {nested : Bool}
    (hnext : ∀ found, Lexer.next source pos = .ok found → Lexer.Reached source found.1 found.2)
    (hfetch : fetch source nested pos = .ok (t, after)) : Lexer.Reached source t after := by
  obtain ⟨found, hfound, hrest⟩ := bind_eq_ok.1 hfetch
  split at hrest
  · exact reached_of_significant (hnext found hfound) hrest
  · cases hrest
    exact hnext _ hfound

end Steps

theorem lasts_follows (source : Source) : Lasts (Follows source) where
  fetched := by
    rintro s nested tok cursor ⟨rfl, hreached⟩ hfetch
    exact ⟨rfl, reached_of_fetch (fun _ hnext => hreached.next hnext) hfetch⟩
  skipped := by
    rintro s limit tok cursor ⟨rfl, hreached⟩ hfound
    exact ⟨rfl, reached_of_significant hreached hfound⟩
  nested := fun _ hs => hs

theorem follows_start {source : Source} {s : State}
    (h : start source (.ofSource source) 0 = .ok s) : Follows source s := by
  obtain ⟨⟨tok, cursor⟩, hfetch, hs⟩ := bind_eq_ok.1 h
  cases hs
  exact ⟨rfl, reached_of_fetch (fun _ hnext => .first hnext) hfetch⟩

/-- The parser is done with a file that it accepts when it has come to the end token, with all
tokens of the source up to there. -/
theorem reads_of_file {source : Source} {body : Body} (h : file source = .ok body) :
    ∃ first last toks, start source (.ofSource source) 0 = .ok first ∧
      (parseBody (depthBound source) none).run first = .ok (body, last) ∧
        Lexer.Reads source (.ofSource source) toks ∧ toks.getLast? = some last.tok := by
  obtain ⟨first, hstart, hrun⟩ := bind_eq_ok.1 h
  obtain ⟨⟨_, last⟩, hbody, rfl⟩ := map_eq_ok.1 hrun
  have hleads :=
    leads_parseBody Value.Hereditary.whollyKnown (lasts_follows source) (depthBound source) none
  obtain ⟨-, ⟨-, hreached⟩, hend⟩ := hleads first (follows_start hstart) _ hbody
  obtain ⟨toks, hreads, hlast⟩ := Lexer.reads_of_reached hreached (hend rfl)
  exact ⟨first, last, toks, hstart, hbody, hreads, hlast⟩

/-- A file whose text begins with the character for the end is accepted as an empty one. -/
theorem file_of_atEnd {source : Source} (h : atEnd source.text.toList = true) :
    ∃ body, file source = .ok body ∧ body.attributes = [] ∧ body.blocks = [] := by
  have hlex : Lexer.Lexes source.text.toList .eof "" source.text.toList :=
    fun source _ _ _ => ⟨_, _, Lexer.next_of_atEnd h source, rfl⟩
  obtain ⟨s, hstart, hs⟩ := exists_start source hlex rfl
  have hdefinitions (depth : Nat) : Runs 0 source.text.toList
      (parseDefinitions (depth + 1) false []) 0 source.text.toList (· = ([], [])) := by
    rw [parseDefinitions]
    refine (Runs.skipNewlines hlex (by decide) (.inl rfl)).bind fun _ _ => ?_
    refine (Runs.current hlex).bind ?_
    rintro _ ⟨span, rfl⟩
    exact Runs.pure rfl
  have hruns (depth : Nat) : Runs 0 source.text.toList (parseBody (depth + 2) none) 0
      source.text.toList fun body => body.attributes = [] ∧ body.blocks = [] := by
    rw [parseBody]
    refine (hdefinitions depth).bind ?_
    rintro _ rfl
    exact Runs.get fun s _ => Runs.pure ⟨rfl, rfl⟩
  obtain ⟨depth, hdepth⟩ : ∃ depth, depthBound source = depth + 2 := by
    refine ⟨16 * source.text.length + 30, ?_⟩
    unfold depthBound
    omega
  obtain ⟨body, s', hrun, -, hbody⟩ := hruns depth s hs
  refine ⟨body, ?_, hbody⟩
  rw [file, hstart, hdepth]
  exact congrArg (Except.map Prod.fst) hrun

/-- The tokens of a source keep all of it exactly if it has no NUL character, which stands for the
end. A file is accepted by its tokens up to the end token, so this is also when it is accepted as a
whole. -/
theorem lossless_iff (source : Source) :
    (∀ toks, Lexer.Reads source (.ofSource source) toks →
      (Lexer.Lossless source toks ↔ '\x00' ∉ source.text.toList)) ∧
    ∀ body, file source = .ok body → ∃ first last toks,
      start source (.ofSource source) 0 = .ok first ∧
      (parseBody (depthBound source) none).run first = .ok (body, last) ∧
        Lexer.Reads source (.ofSource source) toks ∧ toks.getLast? = some last.tok ∧
          (Lexer.Lossless source toks ↔ '\x00' ∉ source.text.toList) := by
  refine ⟨fun toks htoks => Lexer.lossless_of_reads htoks, fun body hbody => ?_⟩
  obtain ⟨first, last, toks, hstart, hrun, hreads, hlast⟩ := reads_of_file hbody
  exact ⟨first, last, toks, hstart, hrun, hreads, hlast, Lexer.lossless_of_reads hreads⟩

/-- A file with one attribute is accepted as a whole. -/
theorem lossless_attribute :
    (∃ toks, Lexer.Reads ⟨"main.tf", "a = true\n"⟩ (.ofSource ⟨"main.tf", "a = true\n"⟩) toks ∧
      Lexer.Lossless ⟨"main.tf", "a = true\n"⟩ toks) ∧
    ∃ body first last toks, file ⟨"main.tf", "a = true\n"⟩ = .ok body ∧
      (parseBody (depthBound ⟨"main.tf", "a = true\n"⟩) none).run first = .ok (body, last) ∧
        toks.getLast? = some last.tok ∧ Lexer.Lossless ⟨"main.tf", "a = true\n"⟩ toks := by
  have hreads : Lexer.Reads ⟨"main.tf", "a = true\n"⟩ (.ofSource ⟨"main.tf", "a = true\n"⟩) _ :=
    .more rfl (by decide) (.more rfl (by decide) (.more rfl (by decide)
      (.more rfl (by decide) (.ends rfl rfl))))
  have hword : Phrase "true".toList fun e => ∃ span, e = .literal span (.bool true) :=
    Phrase.word rfl (by decide) (by decide)
  have hlines : Fields.Related (fun w v => Phrase w fun e => ∃ span, e = .literal span v)
      [("a", "true".toList)] [("a", .bool true)] := .cons hword .nil
  have htext : "a = true\n".toList = defined [("a", "true".toList)] := by decide
  obtain ⟨body, hfile, -⟩ :=
    file_of_defined hlines (by decide) (List.pairwise_singleton _ _) htext "main.tf"
  obtain ⟨hall, haccepted⟩ := lossless_iff ⟨"main.tf", "a = true\n"⟩
  obtain ⟨first, last, toks, -, hrun, -, hlast, hkept⟩ := haccepted body hfile
  have hfirst := (hall _ hreads).2 (by decide)
  exact ⟨⟨_, hreads, hfirst⟩, body, first, last, toks, hfile, hrun, hlast, hkept.2 (by decide)⟩

/-- A file that begins with a NUL character is accepted as an empty one, whatever follows. -/
theorem not_lossless_of_nul : ∃ toks body,
    Lexer.Reads ⟨"main.tf", "\x00b = 2\n"⟩ (.ofSource ⟨"main.tf", "\x00b = 2\n"⟩) toks ∧
      ¬Lexer.Lossless ⟨"main.tf", "\x00b = 2\n"⟩ toks ∧
      file ⟨"main.tf", "\x00b = 2\n"⟩ = .ok body ∧ body.attributes = [] ∧ body.blocks = [] := by
  have hreads : Lexer.Reads ⟨"main.tf", "\x00b = 2\n"⟩ (.ofSource ⟨"main.tf", "\x00b = 2\n"⟩) _ :=
    .ends rfl rfl
  have hatEnd : atEnd (Source.mk "main.tf" "\x00b = 2\n").text.toList = true := by decide
  obtain ⟨body, hfile, hattributes, hblocks⟩ := file_of_atEnd hatEnd
  refine ⟨_, body, hreads, fun hlossless => ?_, hfile, hattributes, hblocks⟩
  exact (Lexer.lossless_of_reads hreads).1 hlossless (by decide)

end StaticConfig.Parser
