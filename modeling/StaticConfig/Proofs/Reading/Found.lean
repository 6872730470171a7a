import StaticConfig.Proofs.Reading.Chunks
import StaticConfig.Proofs.Reading.Placed

/-!
What a parser finds between two tokens. It begins at a token that a lexer has read and ends at a
later one; an expression starts at the first of these tokens, and there is only filler between its
end and the last one.
-/
namespace StaticConfig

open StaticConfig.Lexer (Read Beside Filler)

namespace Lexer

variable {source : Source} {back : List Char} {before : List Token} {t u : Token} {after : Cursor}

theorem Beside.le {place : Nat} (h : Beside source place t) : place ≤ t.writtenStart := by
  obtain ⟨between, ⟨front, rest, -, hstart, hstop⟩, -⟩ := h
  rw [hstart, hstop, byteLength_append]
  omega

theorem Read.start_le_stop (h : Read source back before t after) :
    t.writtenStart ≤ t.writtenStop := by
  obtain ⟨front, rest, -, hstart, hstop⟩ := h.segment
  rw [hstart, hstop, byteLength_append]
  omega

theorem Read.beside_self (h : Read source back before t after) :
    Beside source t.writtenStart t := by
  obtain ⟨front, rest, hsplit, hstart, -⟩ := h.segment
  refine ⟨[], ⟨front, t.writtenText ++ rest, by simpa using hsplit, hstart, ?_⟩, ?_, fun _ => .nil⟩
  · rw [List.append_nil, hstart]
  · exact .blank List.mem_cons_self .nil

/-- Between two places that are beside an operator there is nothing else. -/
theorem Read.between {left right : Span} {text : String} (h : Read source back before t after)
    (ht : t.isSymbol text = true) (hleft : Beside source left.stop t)
    (hright : Beside source t.writtenStop u) (hu : u.Solid) (hstart : right.SameStart u.outer) :
    source.Between left right text := by
  obtain ⟨hkind, rfl⟩ := Token.isSymbol_iff.1 ht
  obtain ⟨front, hfront, -, hfiller⟩ := hleft
  obtain ⟨rest, hrest, -, hfiller'⟩ := hright
  have htext : t.writtenText = t.text.toList := if_neg (by rw [hkind]; decide)
  have htoken := h.segment
  rw [htext] at htoken
  refine ⟨front, rest, hfiller (Token.solid_of_kind hkind nofun nofun), hfiller' hu, ?_⟩
  rw [hstart.start, Token.outer_start]
  exact (hfront.append htoken).append hrest

end Lexer

namespace Parser

/-- From the token on the expression, which binds at least this tightly, was found before the token
of the state. -/
structure Parsed (source : Source) (back : List Char) (t : Token) (rank : Nat) (e : Expr)
    (s : State) : Prop where
  stands : Stands source back s
  solid : t.Solid
  starts : e.span.SameStart t.outer
  longer : t.writtenStop ≤ e.span.stop
  beside : Beside source e.span.stop s.tok
  rank_le : rank ≤ e.rank
  sound : e.Sound source

/-- The state stands at a token behind the place. -/
structure Behind (source : Source) (back : List Char) (place : Nat) (s : State) : Prop where
  stands : Stands source back s
  later : place ≤ s.tok.writtenStart

/-- The rank of what needs no parentheses anywhere. -/
def tight : Nat := BinaryOp.levels.length + 2

section Facts

variable {source : Source} {back : List Char} {s s' : State} {t : Token} {place rank : Nat}
  {e : Expr}

theorem Stands.start_le_stop (h : Stands source back s) :
    s.tok.writtenStart ≤ s.tok.writtenStop := by
  obtain ⟨before, hread⟩ := h.read
  exact hread.start_le_stop

theorem Stands.placed (h : Stands source back s) (hsolid : s.tok.Solid) :
    s.tok.outer.Placed source := by
  obtain ⟨before, hread⟩ := h.read
  exact ⟨back, before, s.tok, s.cursor, hread, hsolid, .inl (.refl _)⟩

/-- The range from a symbol to a later token. -/
theorem Stands.through {symbol : String} {u : Token} (h : Stands source back s)
    (hsymbol : s.tok.isSymbol symbol = true) (hu : u.kind ≠ .string)
    (hle : s.tok.writtenStop ≤ u.writtenStop) :
    (s.tok.span.through u.span).Placed source ∧
      (s.tok.span.through u.span).stop = u.writtenStop := by
  have hsolid := Token.solid_of_kind (Token.isSymbol_iff.1 hsymbol).1 nofun nofun
  obtain ⟨hstart, hstop⟩ := Token.through (Token.ne_string_of_isSymbol hsymbol) hu hle
  exact ⟨(h.placed hsolid).congr hstart, hstop⟩

theorem Onward.later (h : Onward source back s s') : s.tok.writtenStop ≤ s'.tok.writtenStart :=
  h.beside.le

theorem Onward.stop_le (h : Onward source back s s') :
    s.tok.writtenStop ≤ s'.tok.writtenStop :=
  Nat.le_trans h.later h.stands.start_le_stop

theorem Onward.behind (h : Onward source back s s') :
    Behind source back s.tok.writtenStop s' :=
  ⟨h.stands, h.later⟩

theorem Stands.behind (h : Stands source back s) : Behind source back s.tok.writtenStart s :=
  ⟨h, Nat.le_refl _⟩

theorem Parsed.later (h : Parsed source back t rank e s) : t.writtenStop ≤ s.tok.writtenStart :=
  Nat.le_trans h.longer h.beside.le

theorem Parsed.stop_le (h : Parsed source back t rank e s) :
    t.writtenStop ≤ s.tok.writtenStop :=
  Nat.le_trans h.later h.stands.start_le_stop

theorem Behind.goes (h : Behind source back place s) (hgo : Onward source back s s') :
    Behind source back place s' :=
  ⟨hgo.stands, Nat.le_trans h.later (Nat.le_trans h.stands.start_le_stop hgo.later)⟩

theorem Behind.parsed (h : Behind source back place s)
    (he : Parsed source back s.tok rank e s') : Behind source back place s' :=
  ⟨he.stands, Nat.le_trans h.later (Nat.le_trans h.stands.start_le_stop he.later)⟩

theorem Behind.nested (h : Behind source back place s) (nesting : Nat) :
    Behind source back place { s with nesting := nesting } :=
  ⟨h.stands.nested nesting, h.later⟩

theorem Parsed.placed (h : Parsed source back t rank e s) : e.span.Placed source :=
  h.sound.fine.placed

theorem Parsed.mono {rank' : Nat} (h : Parsed source back t rank e s) (hrank : rank' ≤ rank) :
    Parsed source back t rank' e s :=
  { h with rank_le := Nat.le_trans hrank h.rank_le }

/-- An expression that consists of one token. -/
theorem parsed_token (hsolid : s.tok.Solid) (hgo : Onward source back s s')
    (hspan : e.span = s.tok.outer) (hrank : tight ≤ e.rank) (hsound : e.Sound source) :
    Parsed source back s.tok tight e s' := by
  refine ⟨hgo.stands, hsolid, by rw [hspan]; exact .refl _, ?_, ?_, hrank, hsound⟩
  · rw [hspan, Token.outer_stop]
  · rw [hspan, Token.outer_stop]
    exact hgo.beside

/-- An expression from one token to the one of the state. -/
theorem parsed_enclosed {symbol : String} (hsolid : t.Solid) (ht : t.kind ≠ .string)
    (hs : Behind source back t.writtenStop s) (hclose : s.tok.isSymbol symbol = true)
    (hgo : Onward source back s s')
    (hspan : e.span = t.span.through s.tok.span) (hrank : tight ≤ e.rank)
    (hsound : e.Sound source) : Parsed source back t tight e s' := by
  have hstop := Nat.le_trans hs.later hs.stands.start_le_stop
  obtain ⟨hstart, hend⟩ := Token.through ht (Token.ne_string_of_isSymbol hclose) hstop
  rw [← hspan] at hstart hend
  refine ⟨hgo.stands, hsolid, hstart, ?_, ?_, hrank, hsound⟩
  · rw [hend]
    exact hstop
  · rw [hend]
    exact hgo.beside

/-- An expression that goes on to a later place. -/
theorem Parsed.through {last : Span} {e' : Expr} (h : Parsed source back t rank e s)
    (hs' : Stands source back s') (hlast : e.span.stop ≤ last.stop)
    (hbeside : Beside source last.stop s'.tok) (hspan : e'.span = e.span.through last) {rank' : Nat}
    (hrank : rank' ≤ e'.rank) (hsound : e'.Sound source) :
    Parsed source back t rank' e' s' := by
  have hstop : e'.span.stop = last.stop := by
    rw [hspan]
    exact Nat.max_eq_left hlast
  refine ⟨hs', h.solid, by rw [hspan]; exact h.starts.through last, ?_, ?_, hrank, hsound⟩
  · rw [hstop]
    exact Nat.le_trans h.longer hlast
  · rwa [hstop]

theorem span_follow (e : Expr) (step : Step) :
    (e.follow step).span = e.span.through step.span := by
  cases e <;> rfl

theorem rank_follow (e : Expr) (step : Step) : (e.follow step).rank = tight := by
  cases e <;> rfl

/-- One more step behind an expression. -/
theorem Parsed.follow {step : Step} (h : Parsed source back t tight e s)
    (hs' : Stands source back s') (hstep : step.span.Placed source)
    (hlast : e.span.stop ≤ step.span.stop) (hbeside : Beside source step.span.stop s'.tok) :
    Parsed source back t tight (e.follow step) s' := by
  refine h.through hs' hlast hbeside (span_follow e step) (rank_follow e step).ge ?_
  exact Expr.sound_follow h.rank_le h.sound (h.placed.congr (.through (.refl _) _)) hstep

/-- An index behind an expression. -/
theorem Parsed.index {key : Expr} {close : Span} (h : Parsed source back t tight e s)
    (hs' : Stands source back s') (hkey : key.Sound source) (hlast : e.span.stop ≤ close.stop)
    (hbeside : Beside source close.stop s'.tok) :
    Parsed source back t tight (.index (e.span.through close) e key) s' := by
  refine h.through hs' hlast hbeside rfl (Nat.le_refl _) ?_
  exact Expr.sound_index h.rank_le h.sound (h.placed.congr (.through (.refl _) _)) hkey

end Facts

/-- The steps behind a mark, which is the end of a splat without steps. -/
structure Splatted (source : Source) (back : List Char) (mark : Span) (each : List Step)
    (s : State) : Prop where
  stands : Stands source back s
  placed : ∀ step ∈ each, step.span.Placed source
  longer : mark.stop ≤ ((each.getLast?.map Step.span).getD mark).stop
  beside : Beside source ((each.getLast?.map Step.span).getD mark).stop s.tok

theorem splatted_nil {source : Source} {back : List Char} {mark : Span} {s : State}
    (hs : Stands source back s) (hbeside : Beside source mark.stop s.tok) :
    Splatted source back mark [] s :=
  ⟨hs, nofun, Nat.le_refl _, hbeside⟩

theorem Splatted.cons {source : Source} {back : List Char} {mark : Span} {step : Step}
    {each : List Step} {s : State} (h : Splatted source back step.span each s)
    (hstep : step.span.Placed source) (hmark : mark.stop ≤ step.span.stop) :
    Splatted source back mark (step :: each) s := by
  have hlast : (((step :: each).getLast?.map Step.span).getD mark) =
      (each.getLast?.map Step.span).getD step.span := by
    rw [List.getLast?_cons]
    cases each.getLast? <;> rfl
  refine ⟨h.stands, List.forall_mem_cons.2 ⟨hstep, h.placed⟩, ?_, ?_⟩
  · rw [hlast]
    exact Nat.le_trans hmark h.longer
  · rw [hlast]
    exact h.beside

theorem Parsed.splat {source : Source} {back : List Char} {t : Token} {e : Expr} {s s' : State}
    {mark : Span} {each : List Step} (h : Parsed source back t tight e s)
    (hmark : e.span.stop ≤ mark.stop) (heach : Splatted source back mark each s') :
    Parsed source back t tight (splat e mark each) s' := by
  have hlast := Nat.le_trans hmark heach.longer
  refine h.through heach.stands hlast heach.beside rfl (Nat.le_refl _) ?_
  exact Expr.sound_splat h.rank_le h.sound (h.placed.congr (.through (.refl _) _)) heach.placed

namespace From

variable {α : Type} {source : Source} {back : List Char} {place : Nat} {s : State}
  {P : α → State → Prop} {rest : Unit → Parse α}

theorem passNewlines (hs : Behind source back place s) :
    From s Parser.skipNewlines fun _ => Behind source back place := by
  obtain ⟨before, hread⟩ := hs.stands.read
  refine (skipNewlines hs.stands).mono fun _ s' ⟨h, hgo⟩ => ⟨h, ?_⟩
  exact Nat.le_trans hs.later (hgo _ hread.beside_self).le

/-- The parser passes the token if it is the wanted one, and goes on in any case. -/
theorem passing {wanted : Bool} (hs : Behind source back place s)
    (h : ∀ s', Behind source back place s' → From s' (rest ()) P) :
    From s (if wanted = true then Parser.advance >>= rest else rest ()) P := by
  split
  · exact (advance hs.stands).bind fun _ s' hgo => h s' (hs.goes hgo)
  · exact h s hs

/-- The parser passes a separator, or goes on at the end, or fails. -/
theorem separated {separator missing : Bool} {fault : SyntaxFault}
    (hs : Behind source back place s)
    (h : ∀ s', Behind source back place s' → From s' (rest ()) P) :
    From s (if separator = true then Parser.advance >>= rest
      else if missing = true then Parser.failHere fault >>= rest else rest ()) P := by
  split
  · exact (advance hs.stands).bind fun _ s' hgo => h s' (hs.goes hgo)
  · exact guarded fun _ => h s hs

end From

end Parser

end StaticConfig
