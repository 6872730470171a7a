import Mathlib.Tactic.SplitIfs
import StaticConfig.Parser.Template
import StaticConfig.Token.Lexer

/-!
What is written between quotes ends where the quote after it stands, and the text it denotes is
the text that was written. `Spells` has the cases in which the writer, the lexer and the reader of
templates agree on where a piece of the text ends: a mark is taken together with its brace.
-/
namespace StaticConfig

theorem byteLength_cons (c : Char) (cs : List Char) :
    byteLength (c :: cs) = c.utf8Size + byteLength cs := rfl

theorem takeBytes_append (as bs : List Char) : takeBytes (byteLength as) (as ++ bs) = as := by
  induction as with
  | nil => cases bs <;> rfl
  | cons a as ih =>
    have hpos := a.utf8Size_pos
    have hlen : a.utf8Size + byteLength as - a.utf8Size = byteLength as := by omega
    rw [List.cons_append, byteLength_cons, takeBytes, if_neg (by omega), hlen, ih]

namespace Text.Quoted

/-- A text without the character that ends every text. -/
def Plain (cs : List Char) : Prop :=
  ∀ c ∈ cs, c.toNat ≠ 0

instance (cs : List Char) : Decidable (Plain cs) :=
  List.decidableBAll (fun c : Char => c.toNat ≠ 0) cs

/-- The text `ds`, read as the body of a quoted template, denotes `cs`. -/
inductive Spells : List Char → List Char → Prop
  | nil : Spells [] []
  | escape {c e : Char} {cs ds : List Char} :
      Parser.escaped? e = some c → e.toNat ≠ 0 → Spells cs ds → Spells (c :: cs) ('\\' :: e :: ds)
  | mark {c : Char} {cs ds : List Char} :
      c = '$' ∨ c = '%' → Spells cs ds → Spells (c :: '\x7b' :: cs) (c :: c :: '\x7b' :: ds)
  | plain {c : Char} {cs ds : List Char} :
      c ≠ '"' → c ≠ '\\' → c ≠ '\n' → c.toNat ≠ 0 →
      (c = '$' ∨ c = '%' → ∀ more, ds ≠ '\x7b' :: more ∧ ds ≠ c :: '\x7b' :: more) →
      Spells cs ds → Spells (c :: cs) (c :: ds)

/-- A written text starts with a brace only if the text itself does. -/
theorem head?_encode {cs more : List Char} (h : encode cs = '\x7b' :: more) :
    cs.head? = some openBrace := by
  cases cs with
  | nil => cases h
  | cons c cs =>
    simp only [encode] at h
    split_ifs at h <;> simp_all
    rfl

/-- No written text starts with a mark and a brace: the mark would have been doubled. -/
theorem encode_ne_mark {c : Char} (hc : c = '$' ∨ c = '%') (cs more : List Char) :
    encode cs ≠ c :: '\x7b' :: more := by
  intro h
  cases cs with
  | nil => cases h
  | cons d cs =>
    simp only [encode] at h
    split_ifs at h with h1 h2 h3 h4 h5 hm <;>
      simp only [List.cons_append, List.nil_append, List.cons.injEq] at h
    · rcases hc with rfl | rfl <;> exact absurd h.1 (by decide)
    · rcases hc with rfl | rfl <;> exact absurd h.1 (by decide)
    · rcases hc with rfl | rfl <;> exact absurd h.1 (by decide)
    · rcases hc with rfl | rfl <;> exact absurd h.1 (by decide)
    · rcases hc with rfl | rfl <;> exact absurd h.1 (by decide)
    · obtain ⟨hd, -⟩ := hm
      rcases hd with rfl | rfl <;> exact absurd h.2.1 (by decide)
    · obtain ⟨rfl, h⟩ := h
      exact hm ⟨hc, head?_encode h⟩

theorem spells_encode : ∀ {cs : List Char}, Plain cs → Spells cs (encode cs)
  | [], _ => .nil
  | c :: cs, h => by
    have hcs : Plain cs := fun d hd => h d (List.mem_cons_of_mem c hd)
    have hrest : Spells cs (encode cs) := spells_encode hcs
    rw [encode]
    split_ifs with h1 h2 h3 h4 h5 hm <;> simp only [List.cons_append, List.nil_append]
    · subst h1
      exact .escape rfl (by decide) hrest
    · subst h2
      exact .escape rfl (by decide) hrest
    · subst h3
      exact .escape rfl (by decide) hrest
    · subst h4
      exact .escape rfl (by decide) hrest
    · subst h5
      exact .escape rfl (by decide) hrest
    · obtain ⟨hc, hb⟩ := hm
      match cs, hcs, hb with
      | _ :: cs, hcs, rfl =>
        exact .mark hc (spells_encode fun d hd => hcs d (List.mem_cons_of_mem _ hd))
    · refine .plain h1 h2 h3 (h c List.mem_cons_self) (fun hc more => ⟨fun he => ?_, ?_⟩) hrest
      · exact hm ⟨hc, head?_encode he⟩
      · exact encode_ne_mark hc cs more

/-- What stands behind a plain piece does not make a sequence of it, also where the closing quote
follows. -/
theorem append_quote_ne {c : Char} {ds : List Char} (hc : c ≠ '"')
    (h : ∀ more, ds ≠ '\x7b' :: more ∧ ds ≠ c :: '\x7b' :: more) (tail more : List Char) :
    ds ++ '"' :: tail ≠ '\x7b' :: more ∧ ds ++ '"' :: tail ≠ c :: '\x7b' :: more := by
  match ds with
  | [] => simp [hc.symm]
  | [d] =>
    have hd : d ≠ '\x7b' := fun he => (h []).1 (he ▸ rfl)
    simp [hd]
  | d :: e :: ds =>
    have hd : d ≠ '\x7b' := fun he => (h (e :: ds)).1 (he ▸ rfl)
    have he : d = c → e ≠ '\x7b' := fun hd he => (h ds).2 (hd ▸ he ▸ rfl)
    simp_all

/-- The text that a body denotes is read back from it, with nothing left. -/
theorem readChunk_of_spells {cs ds : List Char} (h : Spells cs ds) (span : Span) (offset : Nat) :
    Parser.readChunk span ds offset = .ok ⟨cs, none⟩ := by
  induction h generalizing offset with
  | nil => rfl
  | escape he _ _ ih =>
    rw [Parser.readChunk, he]
    · simp [ih, Except.map, Parser.Chunk.prepend]
    · rintro a b c d more rfl
      cases he
    · rintro a b c d e f g i more rfl
      cases he
  | mark hc _ ih =>
    rcases hc with rfl | rfl <;>
      · rw [Parser.readChunk, ih]
        rfl
  | plain h1 h2 h3 h4 h5 _ ih =>
    rw [Parser.readChunk, ih]
    · rfl
    · rintro a b c d more rfl
      exact absurd rfl h2
    · rintro a b c d e f g i more rfl
      exact absurd rfl h2
    · rintro more rfl
      exact (h5 (.inl rfl) more).2
    · rintro more rfl
      exact (h5 (.inr rfl) more).2
    · rintro more rfl
      exact (h5 (.inr rfl) more).1
    · rintro more rfl
      exact (h5 (.inl rfl) more).1
    · rintro c more rfl
      exact absurd rfl h2
    · exact fun h _ => h2 h

/-- The lexer passes over a body and ends the template at the quote behind it. -/
theorem skipTemplate_of_spells {cs ds : List Char} (h : Spells cs ds) (source : Source)
    (line l c : Nat) (tail : List Char) (offset col : Nat) :
    ∃ after, Lexer.skipTemplate source line (.quoted l c) [] (ds ++ '"' :: tail) offset col =
      .ok after ∧ after.rest = tail ∧ after.offset = offset + byteLength ds + 1 := by
  induction h generalizing offset col with
  | nil => exact ⟨⟨tail, offset + 1, line, col + 1⟩, rfl, rfl, rfl⟩
  | @escape _ e _ ds _ h0 _ ih =>
    obtain ⟨after, hskip, hrest, hoffset⟩ := ih (offset + 1 + e.utf8Size) (col + 2)
    refine ⟨after, ?_, hrest, ?_⟩
    · rw [List.cons_append, List.cons_append, Lexer.skipTemplate, if_neg h0, hskip]
    · rw [hoffset, byteLength_cons, byteLength_cons]
      have : '\\'.utf8Size = 1 := rfl
      omega
  | @mark d _ ds hd _ ih =>
    obtain ⟨after, hskip, hrest, hoffset⟩ := ih (offset + 3) (col + 3)
    refine ⟨after, ?_, hrest, ?_⟩
    · rcases hd with rfl | rfl <;>
        rw [List.cons_append, List.cons_append, List.cons_append, Lexer.skipTemplate, hskip]
    · have hsize : d.utf8Size = 1 := by rcases hd with rfl | rfl <;> rfl
      have : '\x7b'.utf8Size = 1 := rfl
      rw [hoffset, byteLength_cons, byteLength_cons, byteLength_cons]
      omega
  | @plain d _ ds h1 h2 h3 h4 h5 _ ih =>
    obtain ⟨after, hskip, hrest, hoffset⟩ := ih (offset + d.utf8Size) (col + 1)
    refine ⟨after, ?_, hrest, ?_⟩
    · rw [List.cons_append, Lexer.skipTemplate, if_neg h1, if_neg (by simp [h2, h3, h4]), hskip]
      · rintro e more rfl
        exact absurd rfl h2
      · rintro more rfl
        exact (append_quote_ne h1 (h5 (.inl rfl)) tail more).2
      · rintro more rfl
        exact (append_quote_ne h1 (h5 (.inr rfl)) tail more).2
      · rintro more rfl
        exact (append_quote_ne h1 (h5 (.inl rfl)) tail more).1
    · rw [hoffset, byteLength_cons]
      omega

end Text.Quoted

end StaticConfig
