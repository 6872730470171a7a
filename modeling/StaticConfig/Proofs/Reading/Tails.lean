import Mathlib.Data.List.Find
import StaticConfig.Proofs.Reading.Consumed
import StaticConfig.Proofs.RoundTrip.Tokens

/-!
Where quoted templates end. What the lexer skips of a template depends only on the constructs that
are open and on the characters up to the end of the outermost one: it skips the same characters
wherever they stand, inside of whatever else, and whatever follows them.
-/
namespace StaticConfig.Lexer

/-- How many braces are open in an interpolation; in a quoted text there are none to count. -/
def Frame.depth? : Frame → Option Nat
  | .quoted _ _ => none
  | .braces depth _ _ => some depth

/-- Goes on in the innermost construct that is still open, or ends behind the last one. -/
def resume (source : Source) (line : Nat) :
    List Frame → List Char → Nat → Nat → Except SyntaxError Cursor
  | [], cs, offset, col => .ok ⟨cs, offset, line, col⟩
  | frame :: outer, cs, offset, col => skipTemplate source line frame outer cs offset col

theorem skipTemplate_quoted (source : Source) (line l c offset col : Nat) (outer : List Frame)
    {ch : Char} {cs : List Char} (hslash : ch ≠ '\\')
    (hmark : ch = '$' ∨ ch = '%' → ¬[ch, '\x7b'] <+: cs) (hopen : ch = '$' → ¬['\x7b'] <+: cs) :
    skipTemplate source line (.quoted l c) outer (ch :: cs) offset col =
      if ch = '"' then resume source line outer cs (offset + 1) (col + 1)
      else if ch.toNat = 0 ∨ ch = '\n' ∨ ch = '\\' then .error ⟨source, l, c, .unterminatedString⟩
      else skipTemplate source line (.quoted l c) outer cs (offset + ch.utf8Size) (col + 1) := by
  cases outer with
  | nil =>
    rw [skipTemplate]
    · rfl
    · exact fun _ _ h _ => hslash h
    · rintro cs' rfl rfl
      exact hmark (.inl rfl) ⟨cs', rfl⟩
    · rintro cs' rfl rfl
      exact hmark (.inr rfl) ⟨cs', rfl⟩
    · rintro cs' rfl rfl
      exact hopen rfl ⟨cs', rfl⟩
  | cons frame outer =>
    rw [skipTemplate]
    · rfl
    · exact fun _ _ h _ => hslash h
    · rintro cs' rfl rfl
      exact hmark (.inl rfl) ⟨cs', rfl⟩
    · rintro cs' rfl rfl
      exact hmark (.inr rfl) ⟨cs', rfl⟩
    · rintro cs' rfl rfl
      exact hopen rfl ⟨cs', rfl⟩

theorem skipTemplate_braces (source : Source) (line depth l c offset col : Nat)
    (outer : List Frame) (ch : Char) (cs : List Char) :
    skipTemplate source line (.braces depth l c) outer (ch :: cs) offset col =
      if ch.toNat = 0 ∨ ch = '\n' then .error ⟨source, l, c, .unterminatedSequence⟩
      else if ch = '"' then
        skipTemplate source line (.quoted l c) (.braces depth l c :: outer) cs (offset + 1)
          (col + 1)
      else if ch = '\x7b' then
        skipTemplate source line (.braces (depth + 1) l c) outer cs (offset + 1) (col + 1)
      else if ch = '\x7d' then
        match depth with
        | depth + 1 => skipTemplate source line (.braces depth l c) outer cs (offset + 1) (col + 1)
        | 0 => resume source line outer cs (offset + 1) (col + 1)
      else
        skipTemplate source line (.braces depth l c) outer cs (offset + ch.utf8Size) (col + 1) := by
  cases depth with
  | zero => cases outer <;> rw [skipTemplate] <;> rfl
  | succ depth => rw [skipTemplate]

/-- From these open constructs on the text is skipped up to the end of the outermost one, wherever
it stands, whatever is open around them and whatever follows. -/
def Closes (frame : Option Nat) (outer : List (Option Nat)) (text : List Char) : Prop :=
  ∀ (source : Source) (line : Nat) (f : Frame) (fs more : List Frame) (rest : List Char)
    (offset col : Nat), f.depth? = frame → fs.map Frame.depth? = outer →
      skipTemplate source line f (fs ++ more) (text ++ rest) offset col =
        resume source line more rest (offset + byteLength text) (col + text.length)

/-- What is expected behind a mark that opens an interpolation or stands for itself does not begin
here, whatever follows the text. -/
def Bounded (text : List Char) : Prop :=
  ∃ inner close, text = inner ++ [close] ∧ close ∈ ['"', '\x7d']

theorem Bounded.cons {c : Char} {text : List Char} (h : Bounded text) : Bounded (c :: text) := by
  obtain ⟨inner, close, rfl, hclose⟩ := h
  exact ⟨c :: inner, close, rfl, hclose⟩

/-- A beginning without the closing character lies within the text. -/
theorem Bounded.prefix_append {p text rest : List Char} (h : Bounded text)
    (hp : '"' ∉ p ∧ '\x7d' ∉ p) (hstarts : p <+: text ++ rest) (rest' : List Char) :
    p <+: text ++ rest' := by
  rcases List.prefix_or_prefix_of_prefix hstarts (List.prefix_append text rest) with hin | hout
  · exact hin.trans (List.prefix_append _ _)
  · obtain ⟨inner, close, rfl, hclose⟩ := h
    have hmem : close ∈ p := hout.subset (List.mem_append_right _ List.mem_cons_self)
    simp only [List.mem_cons, List.not_mem_nil, or_false] at hclose
    obtain rfl | rfl := hclose
    · exact absurd hmem hp.1
    · exact absurd hmem hp.2

namespace Closes

variable {frame : Option Nat} {outer : List (Option Nat)} {text : List Char} {depth : Nat}

theorem quote : Closes none [] ['"'] := by
  rintro source line (⟨l, c⟩ | ⟨depth, l, c⟩) (_ | ⟨f, fs⟩) more rest offset col hf hfs <;> cases hf
  · cases more <;> rfl
  · cases hfs

theorem brace : Closes (some 0) [] ['\x7d'] := by
  rintro source line (⟨l, c⟩ | ⟨depth, l, c⟩) (_ | ⟨f, fs⟩) more rest offset col hf hfs <;> cases hf
  · cases more <;> rfl
  · cases hfs

/-- The text is skipped after the characters that are taken first. -/
theorem after {frame' : Option Nat} {outer' : List (Option Nat)} (taken : List Char)
    (h : Closes frame' outer' text)
    (hstep : ∀ (source : Source) (line : Nat) (f : Frame) (fs more : List Frame) (rest : List Char)
      (offset col : Nat), f.depth? = frame → fs.map Frame.depth? = outer →
        ∃ f' fs', f'.depth? = frame' ∧ fs'.map Frame.depth? = outer' ∧
          skipTemplate source line f (fs ++ more) (taken ++ (text ++ rest)) offset col =
            skipTemplate source line f' (fs' ++ more) (text ++ rest) (offset + byteLength taken)
              (col + taken.length)) :
    Closes frame outer (taken ++ text) := by
  intro source line f fs more rest offset col hf hfs
  obtain ⟨f', fs', hf', hfs', hrun⟩ := hstep source line f fs more rest offset col hf hfs
  rw [List.append_assoc, hrun, h source line f' fs' more rest _ _ hf' hfs', byteLength_append,
    List.length_append, Nat.add_assoc, Nat.add_assoc]

theorem endQuote (h : Closes frame outer text) : Closes none (frame :: outer) ('"' :: text) := by
  refine h.after ['"'] fun source line f fs more rest offset col hf hfs => ?_
  obtain ⟨l, c⟩ | ⟨depth, l, c⟩ := f <;> cases hf
  obtain _ | ⟨f, fs⟩ := fs <;> cases hfs
  refine ⟨f, fs, rfl, rfl, ?_⟩
  rw [List.cons_append, List.cons_append, skipTemplate, if_pos rfl]
  · rfl
  all_goals simp

theorem escape {ch : Char} (hch : ch.toNat ≠ 0) (h : Closes none outer text) :
    Closes none outer ('\\' :: ch :: text) := by
  refine h.after ['\\', ch] fun source line f fs more rest offset col hf hfs => ?_
  obtain ⟨l, c⟩ | ⟨depth, l, c⟩ := f <;> cases hf
  refine ⟨.quoted l c, fs, rfl, hfs, ?_⟩
  rw [List.cons_append, List.cons_append, skipTemplate, if_neg hch, Nat.add_assoc offset]
  rfl

theorem doubled {mark : Char} (hmark : mark ∈ ['$', '%']) (h : Closes none outer text) :
    Closes none outer (mark :: mark :: '\x7b' :: text) := by
  refine h.after [mark, mark, '\x7b'] fun source line f fs more rest offset col hf hfs => ?_
  obtain ⟨l, c⟩ | ⟨depth, l, c⟩ := f <;> cases hf
  refine ⟨.quoted l c, fs, rfl, hfs, ?_⟩
  simp only [List.mem_cons, List.not_mem_nil, or_false] at hmark
  obtain rfl | rfl := hmark
  · exact skipTemplate.eq_4 ..
  · exact skipTemplate.eq_5 ..

theorem interpolation (h : Closes (some 0) (none :: outer) text) :
    Closes none outer ('$' :: '\x7b' :: text) := by
  refine h.after ['$', '\x7b'] fun source line f fs more rest offset col hf hfs => ?_
  obtain ⟨l, c⟩ | ⟨depth, l, c⟩ := f <;> cases hf
  refine ⟨.braces 0 line col, .quoted l c :: fs, rfl, congrArg (none :: ·) hfs, ?_⟩
  exact skipTemplate.eq_6 ..

/-- Any other character of a quoted text, which together with what follows is no mark. -/
theorem quoted {ch : Char} (hch : ch ∉ ['"', '\\', '\n', '\x00'])
    (hmark : ∀ rest, ch = '$' ∨ ch = '%' → ¬[ch, '\x7b'] <+: text ++ rest)
    (hopen : ∀ rest, ch = '$' → ¬['\x7b'] <+: text ++ rest) (h : Closes none outer text) :
    Closes none outer (ch :: text) := by
  refine h.after [ch] fun source line f fs more rest offset col hf hfs => ?_
  obtain ⟨l, c⟩ | ⟨depth, l, c⟩ := f <;> cases hf
  simp only [List.mem_cons, List.not_mem_nil, or_false, not_or] at hch
  obtain ⟨hquote, hslash, hline, hzero⟩ := hch
  have h0 : ch.toNat ≠ 0 := fun h0 => hzero (Char.toNat_inj.1 h0)
  refine ⟨.quoted l c, fs, rfl, hfs, ?_⟩
  have hstep := skipTemplate_quoted source line l c offset col (fs ++ more) hslash (hmark rest)
    (hopen rest)
  rw [if_neg hquote, if_neg (by simp [h0, hline, hslash])] at hstep
  exact hstep

theorem beginQuote (h : Closes none (some depth :: outer) text) :
    Closes (some depth) outer ('"' :: text) := by
  refine h.after ['"'] fun source line f fs more rest offset col hf hfs => ?_
  obtain ⟨l, c⟩ | ⟨depth, l, c⟩ := f <;> cases hf
  refine ⟨.quoted l c, .braces depth l c :: fs, rfl, congrArg (some depth :: ·) hfs, ?_⟩
  exact skipTemplate_braces source line depth l c offset col (fs ++ more) '"' (text ++ rest)

theorem beginBrace (h : Closes (some (depth + 1)) outer text) :
    Closes (some depth) outer ('\x7b' :: text) := by
  refine h.after ['\x7b'] fun source line f fs more rest offset col hf hfs => ?_
  obtain ⟨l, c⟩ | ⟨depth, l, c⟩ := f <;> cases hf
  refine ⟨.braces (depth + 1) l c, fs, rfl, hfs, ?_⟩
  exact skipTemplate_braces source line depth l c offset col (fs ++ more) '\x7b' (text ++ rest)

theorem endBrace (h : Closes (some depth) outer text) :
    Closes (some (depth + 1)) outer ('\x7d' :: text) := by
  refine h.after ['\x7d'] fun source line f fs more rest offset col hf hfs => ?_
  obtain ⟨l, c⟩ | ⟨depth, l, c⟩ := f <;> cases hf
  refine ⟨.braces depth l c, fs, rfl, hfs, ?_⟩
  exact skipTemplate_braces source line _ l c offset col (fs ++ more) '\x7d' (text ++ rest)

theorem endInterpolation (h : Closes frame outer text) :
    Closes (some 0) (frame :: outer) ('\x7d' :: text) := by
  refine h.after ['\x7d'] fun source line f fs more rest offset col hf hfs => ?_
  obtain ⟨l, c⟩ | ⟨depth, l, c⟩ := f <;> cases hf
  obtain _ | ⟨f, fs⟩ := fs <;> cases hfs
  refine ⟨f, fs, rfl, rfl, ?_⟩
  exact skipTemplate_braces source line 0 l c offset col (f :: (fs ++ more)) '\x7d' (text ++ rest)

/-- Any other character of an interpolation. -/
theorem inside {ch : Char} (hch : ch ∉ ['"', '\x7b', '\x7d', '\n', '\x00'])
    (h : Closes (some depth) outer text) : Closes (some depth) outer (ch :: text) := by
  refine h.after [ch] fun source line f fs more rest offset col hf hfs => ?_
  obtain ⟨l, c⟩ | ⟨depth, l, c⟩ := f <;> cases hf
  simp only [List.mem_cons, List.not_mem_nil, or_false, not_or] at hch
  obtain ⟨hquote, hopen, hclose, hline, hzero⟩ := hch
  have h0 : ch.toNat ≠ 0 := fun h0 => hzero (Char.toNat_inj.1 h0)
  have hstep := skipTemplate_braces source line depth l c offset col (fs ++ more) ch (text ++ rest)
  rw [if_neg (by simp [h0, hline]), if_neg hquote, if_neg hopen, if_neg hclose] at hstep
  exact ⟨.braces depth l c, fs, rfl, hfs, hstep⟩

end Closes

/-- What a template is skipped over, it is skipped over wherever it stands. -/
theorem closes_of_skipTemplate {source : Source} {line : Nat} {frame : Frame} {outer : List Frame}
    {cs : List Char} {offset col : Nat} {after : Cursor}
    (h : skipTemplate source line frame outer cs offset col = .ok after) :
    ∃ text, cs = text ++ after.rest ∧ Bounded text ∧
      Closes frame.depth? (outer.map Frame.depth?) text := by
  fun_induction skipTemplate source line frame outer cs offset col with
  | case1 => cases h
  | case2 => cases h
  | case3 => cases h
  | case4 l c outer ch cs offset col hend ih =>
    obtain ⟨text, rfl, hbounded, hcloses⟩ := ih h
    exact ⟨_, rfl, hbounded.cons.cons, hcloses.escape hend⟩
  | case5 l c outer cs offset col ih =>
    obtain ⟨text, rfl, hbounded, hcloses⟩ := ih h
    exact ⟨_, rfl, hbounded.cons.cons.cons, hcloses.doubled (by decide)⟩
  | case6 l c outer cs offset col ih =>
    obtain ⟨text, rfl, hbounded, hcloses⟩ := ih h
    exact ⟨_, rfl, hbounded.cons.cons.cons, hcloses.doubled (by decide)⟩
  | case7 l c outer cs offset col ih =>
    obtain ⟨text, rfl, hbounded, hcloses⟩ := ih h
    exact ⟨_, rfl, hbounded.cons.cons, hcloses.interpolation⟩
  | case8 l c cs offset col =>
    cases h
    exact ⟨['"'], rfl, ⟨[], '"', rfl, by decide⟩, .quote⟩
  | case9 l c cs offset col frame outer _ _ _ _ ih =>
    obtain ⟨text, rfl, hbounded, hcloses⟩ := ih h
    exact ⟨_, rfl, hbounded.cons, hcloses.endQuote⟩
  | case10 => cases h
  | case11 l c outer ch cs offset col _ hdollar hpercent hopen hquote hplain ih =>
    obtain ⟨text, rfl, hbounded, hcloses⟩ := ih h
    refine ⟨_, rfl, hbounded.cons, hcloses.quoted ?_ ?_ ?_⟩
    · rw [not_or, not_or] at hplain
      obtain ⟨hzero, hline, hslash⟩ := hplain
      have hnul : ch ≠ '\x00' := fun hnul => hzero (congrArg Char.toNat hnul)
      simp [hquote, hslash, hline, hnul]
    · rintro rest (rfl | rfl) hstarts
      · obtain ⟨more, hmore⟩ := hbounded.prefix_append (by decide) hstarts after.rest
        exact hdollar more rfl hmore.symm
      · obtain ⟨more, hmore⟩ := hbounded.prefix_append (by decide) hstarts after.rest
        exact hpercent more rfl hmore.symm
    · rintro rest rfl hstarts
      obtain ⟨more, hmore⟩ := hbounded.prefix_append (by decide) hstarts after.rest
      exact hopen more rfl hmore.symm
  | case12 => cases h
  | case13 depth l c outer cs offset col _ ih =>
    obtain ⟨text, rfl, hbounded, hcloses⟩ := ih h
    exact ⟨_, rfl, hbounded.cons, hcloses.beginQuote⟩
  | case14 depth l c outer cs offset col _ _ ih =>
    obtain ⟨text, rfl, hbounded, hcloses⟩ := ih h
    exact ⟨_, rfl, hbounded.cons, hcloses.beginBrace⟩
  | case15 l c outer cs offset col depth _ _ _ ih =>
    obtain ⟨text, rfl, hbounded, hcloses⟩ := ih h
    exact ⟨_, rfl, hbounded.cons, hcloses.endBrace⟩
  | case16 l c cs offset col frame outer _ _ _ ih =>
    obtain ⟨text, rfl, hbounded, hcloses⟩ := ih h
    exact ⟨_, rfl, hbounded.cons, hcloses.endInterpolation⟩
  | case17 l c cs offset col =>
    cases h
    exact ⟨['\x7d'], rfl, ⟨[], '\x7d', rfl, by decide⟩, .brace⟩
  | case18 depth l c outer ch cs offset col hend hquote hopen hclose ih =>
    obtain ⟨text, rfl, hbounded, hcloses⟩ := ih h
    refine ⟨_, rfl, hbounded.cons, hcloses.inside ?_⟩
    rw [not_or] at hend
    obtain ⟨hzero, hline⟩ := hend
    have hnul : ch ≠ '\x00' := fun hnul => hzero (congrArg Char.toNat hnul)
    simp [hquote, hopen, hclose, hline, hnul]

end StaticConfig.Lexer

/-!
What follows a token. The lexer looks at the character behind a token only to see whether the
token goes on there, and neither a blank nor the end of a line nor a closing brace goes on with
any, so one of these may stand for another. Where a token stands in its source does not matter.
-/
namespace StaticConfig.Lexer

/-- The text goes on with no token: it is empty, or starts with a blank, the end of a line or a
closing brace. -/
def Inert (tail : List Char) : Prop :=
  ∀ c ∈ tail.head?, c ∈ [' ', '\n', '\x7d']

theorem inert_nil : Inert [] := by
  rintro _ ⟨⟩

theorem Inert.eq_false {tail : List Char} (h : Inert tail) {p : Char → Bool}
    (hp : [' ', '\n', '\x7d'].any p = false) : ∀ c ∈ tail.head?, p c = false := by
  intro c hc
  rw [← Bool.not_eq_true]
  exact List.any_eq_false.1 hp c (h c hc)

/-- The gap with another place where a comment was opened. -/
def Gap.moved (line col : Nat) : Gap → Gap
  | .blockComment _ _ => .blockComment line col
  | gap => gap

theorem length_le_of_skipGap {source : Source} {gap : Gap} {cs : List Char} {offset line col : Nat}
    {mid : Cursor} (h : skipGap source gap cs offset line col = .ok mid) :
    mid.rest.length ≤ cs.length := by
  fun_induction skipGap source gap cs offset line col with
  | case1 | case8 | case14 => cases h
  | case2 | case10 | case11 => cases h; rfl
  | case3 _ _ _ _ ih | case4 _ _ _ _ ih | case13 _ _ _ _ _ _ ih =>
    exact (ih h).trans (Nat.le_add_right _ 2)
  | case5 _ _ _ _ _ _ ih | case6 _ _ _ _ _ _ _ ih | case7 _ _ _ _ _ _ _ _ _ ih
  | case9 _ _ _ _ _ _ _ _ _ ih | case12 _ _ _ _ _ _ ih | case15 _ _ _ _ _ _ _ _ ih
  | case16 _ _ _ _ _ _ _ _ _ _ ih => exact (ih h).trans (Nat.le_succ _)

variable {d d' : List Char}

/-- A character that no inert text starts with does not come next, whichever inert text follows. -/
theorem ne_cons_swap (hd' : Inert d') {c : Char} (hc : c ∉ [' ', '\n', '\x7d']) {z : List Char}
    (h : ∀ more, z ++ d = c :: more → False) (more : List Char) : z ++ d' ≠ c :: more := by
  cases z with
  | nil =>
    rintro rfl
    exact hc (hd' c rfl)
  | cons e z =>
    rintro hz
    cases hz
    exact h _ rfl

/-- A text that is read behind what is skipped lies behind the characters before it too. -/
theorem exists_append_of_skipGap {source : Source} {gap : Gap} {p cs y z : List Char}
    {offset line col : Nat} {mid : Cursor} (h : skipGap source gap cs offset line col = .ok mid)
    (hmid : mid.rest = y ++ d) (hz : p ++ cs = z ++ d) : ∃ z', z = p ++ z' ∧ cs = z' ++ d := by
  obtain hbefore | ⟨extra, rfl, rfl⟩ := List.append_eq_append_iff.1 hz
  · exact hbefore
  · have hle := length_le_of_skipGap h
    rw [hmid, List.length_append, List.length_append] at hle
    obtain rfl : extra = [] := List.length_eq_zero_iff.1 (by omega)
    exact ⟨[], by simp, rfl⟩

/-- What is skipped before the characters that are read does not depend on an inert text behind
them. -/
theorem skipGap_swap {source : Source} {gap : Gap} {cs : List Char} {offset line col : Nat}
    {mid : Cursor} (h : skipGap source gap cs offset line col = .ok mid) {y : List Char}
    (hd' : Inert d') (hmid : mid.rest = y ++ d) (hy : y = [] → d = [] ∧ d' = []) :
    ∀ z, cs = z ++ d → ∀ (source' : Source) (l c offset' line' col' : Nat), ∃ mid',
      skipGap source' (gap.moved l c) (z ++ d') offset' line' col' = .ok mid' ∧
        mid'.rest = y ++ d' := by
  fun_induction skipGap source gap cs offset line col with
  | case1 => cases h
  | case2 gap offset line col hgap =>
    rintro z hz source' l c offset' line' col'
    cases h
    obtain ⟨rfl, rfl⟩ := List.append_eq_nil_iff.1 hmid.symm
    obtain ⟨rfl, -⟩ := List.append_eq_nil_iff.1 hz.symm
    obtain ⟨-, rfl⟩ := hy rfl
    refine ⟨⟨[], offset', line', col'⟩, ?_, rfl⟩
    cases gap with
    | blank => rfl
    | lineComment => rfl
    | blockComment l c => exact absurd rfl (hgap l c)
  -- Where the gap goes on, its first characters are skipped and the rest is the same step again.
  | case3 cs offset line col ih =>
    intro z hz source' l c offset' line' col'
    obtain ⟨z, rfl, rfl⟩ := exists_append_of_skipGap (p := ['/', '*']) h hmid hz
    exact ih h z rfl source' line' col' (offset' + 2) line' (col' + 2)
  | case4 cs offset line col ih =>
    intro z hz source' l c offset' line' col'
    obtain ⟨z, rfl, rfl⟩ := exists_append_of_skipGap (p := ['/', '/']) h hmid hz
    exact ih h z rfl source' l c (offset' + 2) line' col'
  | case5 cs offset line col _ _ ih =>
    intro z hz source' l c offset' line' col'
    obtain ⟨z, rfl, rfl⟩ := exists_append_of_skipGap (p := [' ']) h hmid hz
    exact ih h z rfl source' l c (offset' + 1) line' (col' + 1)
  | case6 cs offset line col _ _ _ ih =>
    intro z hz source' l c offset' line' col'
    obtain ⟨z, rfl, rfl⟩ := exists_append_of_skipGap (p := ['\t']) h hmid hz
    exact ih h z rfl source' l c (offset' + 1) line' (col' + 4)
  | case7 cs offset line col hhead _ _ _ _ ih =>
    intro z hz source' l c offset' line' col'
    obtain ⟨z, rfl, rfl⟩ := exists_append_of_skipGap (p := ['\r']) h hmid hz
    obtain ⟨mid', hskip, hrest⟩ := ih h z rfl source' l c (offset' + 1) line' col'
    refine ⟨mid', ?_, hrest⟩
    have hnewline : (z ++ d').head? = some '\n' := by
      cases z with
      | cons e z => exact hhead
      | nil =>
        have hle := length_le_of_skipGap h
        rw [hmid, List.length_append, List.nil_append] at hle
        obtain ⟨rfl, -⟩ := hy (List.length_eq_zero_iff.1 (by omega))
        cases hhead
    change skipGap source' .blank ('\r' :: (z ++ d')) offset' line' col' = _
    rw [skipGap]
    · simp only [hnewline, if_true]
      exact hskip
    all_goals simp
  | case8 => cases h
  | case9 cs offset line col _ _ _ _ _ ih =>
    intro z hz source' l c offset' line' col'
    obtain ⟨z, rfl, rfl⟩ := exists_append_of_skipGap (p := ['#']) h hmid hz
    exact ih h z rfl source' l c (offset' + 1) line' col'
  | case10 ch cs offset line col hstar hslash hblank htab hreturn hhash =>
    intro z hz source' l c offset' line' col'
    cases h
    obtain rfl : y = z := List.append_cancel_right (hmid.symm.trans hz)
    obtain ⟨rfl, htail⟩ | ⟨y, rfl, rfl⟩ := List.cons_eq_append_iff.1 hz
    · cases (hy rfl).1.symm.trans htail
    · refine ⟨⟨_, offset', line', col'⟩, ?_, rfl⟩
      change skipGap source' .blank (ch :: (y ++ d')) offset' line' col' = _
      rw [skipGap]
      · simp only [hblank, htab, hreturn, hhash, if_false]
        rfl
      · exact fun more hch => ne_cons_swap hd' (by decide) (fun more => hstar more hch) more
      · exact fun more hch => ne_cons_swap hd' (by decide) (fun more => hslash more hch) more
  | case11 ch cs offset line col hend =>
    intro z hz source' l c offset' line' col'
    cases h
    obtain rfl : y = z := List.append_cancel_right (hmid.symm.trans hz)
    obtain ⟨rfl, htail⟩ | ⟨y, rfl, rfl⟩ := List.cons_eq_append_iff.1 hz
    · cases (hy rfl).1.symm.trans htail
    · refine ⟨⟨_, offset', line', col'⟩, ?_, rfl⟩
      change skipGap source' .lineComment (ch :: (y ++ d')) offset' line' col' = _
      rw [skipGap, if_pos hend]
      rfl
  | case12 ch cs offset line col hend ih =>
    intro z hz source' l c offset' line' col'
    obtain ⟨z, rfl, rfl⟩ := exists_append_of_skipGap (p := [ch]) h hmid hz
    obtain ⟨mid', hskip, hrest⟩ := ih h z rfl source' l c (offset' + ch.utf8Size) line' col'
    refine ⟨mid', ?_, hrest⟩
    change skipGap source' .lineComment (ch :: (z ++ d')) offset' line' col' = _
    rw [skipGap, if_neg hend]
    exact hskip
  | case13 l₀ c₀ cs offset line col ih =>
    intro z hz source' l c offset' line' col'
    obtain ⟨z, rfl, rfl⟩ := exists_append_of_skipGap (p := ['*', '/']) h hmid hz
    exact ih h z rfl source' l c (offset' + 2) line' (col' + 2)
  | case14 => cases h
  | case15 l₀ c₀ cs offset line col _ _ ih =>
    intro z hz source' l c offset' line' col'
    obtain ⟨z, rfl, rfl⟩ := exists_append_of_skipGap (p := ['\n']) h hmid hz
    exact ih h z rfl source' l c (offset' + 1) (line' + 1) 1
  | case16 l₀ c₀ ch cs offset line col hclose hzero hline ih =>
    intro z hz source' l c offset' line' col'
    obtain ⟨z, rfl, rfl⟩ := exists_append_of_skipGap (p := [ch]) h hmid hz
    obtain ⟨mid', hskip, hrest⟩ :=
      ih h z rfl source' l c (offset' + ch.utf8Size) line' (col' + 1)
    refine ⟨mid', ?_, hrest⟩
    change skipGap source' (.blockComment l c) (ch :: (z ++ d')) offset' line' col' = _
    rw [skipGap, if_neg hzero, if_neg hline]
    · exact hskip
    · exact fun more hch => ne_cons_swap hd' (by decide) (fun more => hclose more hch) more

theorem takeWhile_inert {p : Char → Bool} (hp : [' ', '\n', '\x7d'].any p = false) (hd : Inert d)
    (cs : List Char) : (cs ++ d).takeWhile p = cs.takeWhile p ∧
      (cs ++ d).dropWhile p = cs.dropWhile p ++ d := by
  induction cs with
  | nil => exact takeWhile_append_eq (List.forall_mem_nil _) (hd.eq_false hp)
  | cons c cs ih =>
    cases hc : p c with
    | true => simp [hc, ih.1, ih.2]
    | false => simp [hc]

theorem digits_append (hd : Inert d) (cs : List Char) :
    digits (cs ++ d) = ((digits cs).1, (digits cs).2 ++ d) := by
  obtain ⟨htake, hdrop⟩ := takeWhile_inert (p := Char.isDigit) (by decide) hd cs
  rw [digits, htake, hdrop, digits]

theorem fraction_of_ne {c : Char} (hc : c ≠ '.') (cs : List Char) :
    fraction (c :: cs) = ([], c :: cs) := by
  rw [fraction]
  intro e ds hds
  exact hc (List.cons.inj hds).1

theorem fraction_append (hd : Inert d) (cs : List Char) :
    fraction (cs ++ d) = ((fraction cs).1, (fraction cs).2 ++ d) := by
  cases cs with
  | nil =>
    cases d with
    | nil => rfl
    | cons c d =>
      have hpoint : c ≠ '.' := by
        rintro rfl
        exact absurd (hd '.' rfl) (by decide)
      rw [List.nil_append, fraction_of_ne hpoint]
      rfl
  | cons c cs =>
    by_cases hpoint : c = '.'
    · subst hpoint
      match cs, d with
      | [], [] => rfl
      | [], c :: d =>
        have hc : c.isDigit = false := hd.eq_false (by decide) c rfl
        simp [fraction, hc]
      | c :: cs, d =>
        cases hc : c.isDigit with
        | false => simp [fraction, hc]
        | true =>
          have hdigits := digits_append hd (c :: cs)
          simp only [List.cons_append, fraction, hc, if_true] at hdigits ⊢
          rw [hdigits]
    · rw [List.cons_append, fraction_of_ne hpoint, fraction_of_ne hpoint]
      rfl

theorem exponent_append (hd : Inert d) (cs : List Char) :
    exponent (cs ++ d) = ((exponent cs).1, (exponent cs).2.1 ++ d, (exponent cs).2.2) := by
  match cs with
  | [] =>
    cases d with
    | nil => rfl
    | cons c d =>
      have hc : isExponentMark c = false := hd.eq_false (by decide) c rfl
      simp [exponent, hc]
  | e :: cs =>
    cases he : isExponentMark e with
    | false => simp [exponent, he]
    | true =>
      have hsign : ((cs ++ d).take 1).filter isSign = (cs.take 1).filter isSign := by
        cases cs with
        | cons c cs => simp
        | nil =>
          cases d with
          | nil => rfl
          | cons c d =>
            have hc : isSign c = false := hd.eq_false (by decide) c rfl
            simp [hc]
      have hdrop : (cs ++ d).drop ((cs.take 1).filter isSign).length =
          cs.drop ((cs.take 1).filter isSign).length ++ d := by
        refine List.drop_append_of_le_length ?_
        exact (List.length_filter_le _ _).trans (List.length_take_le' _ _)
      simp only [List.cons_append, exponent, he, if_true, hsign, hdrop, digits_append hd]

/-- No symbol goes on with what starts an inert text. -/
theorem symbolAt_append (hd : Inert d) {cs : List Char} (hcs : cs ≠ []) :
    symbolAt (cs ++ d) = symbolAt cs := by
  have hsymbols : ∀ s ∈ symbols, ' ' ∉ s.tail ∧ '\n' ∉ s.tail ∧ '\x7d' ∉ s.tail := by
    decide +kernel
  have hiff {s : List Char} (hs : s ∈ symbols) : s <+: cs ++ d ↔ s <+: cs := by
    refine ⟨fun h => ?_, fun h => h.trans (List.prefix_append cs d)⟩
    rcases List.prefix_or_prefix_of_prefix h (List.prefix_append cs d) with hin | ⟨more, rfl⟩
    · exact hin
    · cases more with
      | nil => exact ⟨[], by simp⟩
      | cons c more =>
        obtain ⟨rest, hrest⟩ := (List.prefix_append_right_inj cs).1 h
        have hc : c ∈ d.head? := by
          rw [← hrest]
          rfl
        have hmem : c ∈ (cs ++ c :: more).tail := by
          rw [List.tail_append_of_ne_nil hcs]
          exact List.mem_append_right _ List.mem_cons_self
        obtain ⟨hspace, hline, hbrace⟩ := hsymbols _ hs
        have hinert := hd c hc
        simp only [List.mem_cons, List.not_mem_nil, or_false] at hinert
        obtain rfl | rfl | rfl := hinert
        · exact absurd hmem hspace
        · exact absurd hmem hline
        · exact absurd hmem hbrace
  refine List.find?_congr fun s hs => ?_
  rw [Bool.eq_iff_iff, List.isPrefixOf_iff_prefix, List.isPrefixOf_iff_prefix]
  exact hiff hs

/-- The token has this kind and this text, and the cursor stands before this text behind it. -/
def Scans (r : Except SyntaxError (Token × Cursor)) (kind : TokenKind) (text : String)
    (rest : List Char) : Prop :=
  ∃ span after, r = .ok (⟨kind, text, span⟩, after) ∧ after.rest = rest

theorem scans_of_ok {r : Except SyntaxError (Token × Cursor)} {t : Token} {after : Cursor}
    (h : r = .ok (t, after)) : Scans r t.kind t.text after.rest :=
  ⟨t.span, after, h, rfl⟩

theorem Scans.eq {r : Except SyntaxError (Token × Cursor)} {kind kind' : TokenKind}
    {text text' : String} {rest rest' : List Char} (h : Scans r kind text rest)
    (h' : Scans r kind' text' rest') : kind = kind' ∧ text = text' ∧ rest = rest' := by
  obtain ⟨span, after, rfl, rfl⟩ := h
  obtain ⟨span', after', h, rfl⟩ := h'
  cases h
  exact ⟨rfl, rfl, rfl⟩

theorem scans_tokenOf (source : Source) (pos : Cursor) (kind : TokenKind) (cs rest : List Char) :
    Scans (.ok (tokenOf source pos kind cs rest)) kind (String.ofList cs) rest :=
  ⟨_, _, rfl, rfl⟩

/-- The character goes on with a word. -/
def joins (c : Char) : Bool := c == '_' || c.isAlpha

theorem readNumber_eq (source : Source) (pos : Cursor) : readNumber source pos =
    let whole := digits pos.rest
    let frac := fraction whole.2
    let expo := exponent frac.2
    let cs := whole.1 ++ frac.1 ++ expo.1
    if expo.2.2 || expo.2.1.head?.any joins then
      .error ⟨source, pos.line, pos.col + cs.length, .invalidNumber⟩
    else .ok (tokenOf source pos .number cs expo.2.1) := by
  unfold readNumber
  dsimp only
  cases (exponent (fraction (digits pos.rest).2).2).2.1 <;> rfl

theorem any_joins_append (hd : Inert d) (cs : List Char) :
    (cs ++ d).head?.any joins = cs.head?.any joins := by
  match cs, d with
  | [], [] => rfl
  | [], c :: d => exact hd.eq_false (p := joins) (by decide) c rfl
  | c :: cs, d => rfl

/-- A number is read in the same way whichever inert text follows. -/
theorem readNumber_swap {source : Source} {pos : Cursor} {kind : TokenKind} {text : String}
    {y rest : List Char} (hd : Inert d) (hpos : pos.rest = y ++ d)
    (h : Scans (readNumber source pos) kind text rest) : ∃ z, rest = z ++ d ∧
      ∀ d', Inert d' → ∀ (source' : Source) (pos' : Cursor), pos'.rest = y ++ d' →
        Scans (readNumber source' pos') kind text (z ++ d') := by
  simp only [readNumber_eq, hpos, digits_append hd, fraction_append hd, exponent_append hd,
    any_joins_append hd] at h
  obtain ⟨span, after, h, rfl⟩ := h
  split at h
  · cases h
  · next hgood =>
    cases h
    refine ⟨_, rfl, fun d' hd' source' pos' hpos' => ?_⟩
    simp only [readNumber_eq, hpos', digits_append hd', fraction_append hd', exponent_append hd',
      any_joins_append hd']
    rw [if_neg hgood]
    exact scans_tokenOf _ _ _ _ _

/-- A quoted template is read in the same way whatever follows. -/
theorem readTemplate_of_closes {inner : List Char} {close : Char} (hclose : close ∈ ['"', '\x7d'])
    (h : Closes none [] (inner ++ [close])) (source : Source) (pos : Cursor) (rest : List Char) :
    Scans (readTemplate source pos (inner ++ [close] ++ rest)) .string (String.ofList inner)
      rest := by
  have hskip := h source pos.line (.quoted pos.line pos.col) [] [] rest (pos.offset + 1)
    (pos.col + 1) rfl rfl
  have hsize : byteLength (inner ++ [close]) = byteLength inner + 1 := by
    simp only [List.mem_cons, List.not_mem_nil, or_false] at hclose
    rw [byteLength_append]
    rcases hclose with rfl | rfl <;> rfl
  have hlength : pos.offset + 1 + (byteLength inner + 1) - 1 - (pos.offset + 1) =
      byteLength inner := by omega
  refine ⟨⟨source, pos.line, pos.col + 1, pos.offset + 1,
    pos.offset + 1 + (byteLength inner + 1) - 1⟩, ⟨rest, pos.offset + 1 + (byteLength inner + 1),
    pos.line, pos.col + 1 + (inner ++ [close]).length⟩, ?_, rfl⟩
  rw [List.append_nil] at hskip
  rw [readTemplate, hskip, hsize]
  simp only [resume, hlength, List.append_assoc, takeBytes_append]

theorem readTemplate_swap {source : Source} {pos : Cursor} {kind : TokenKind} {text : String}
    {cs rest : List Char} (h : Scans (readTemplate source pos cs) kind text rest) :
    ∃ w, cs = w ++ rest ∧ ∀ (source' : Source) (pos' : Cursor) (rest' : List Char),
      Scans (readTemplate source' pos' (w ++ rest')) kind text rest' := by
  obtain ⟨span, after, hread, hrest⟩ := id h
  unfold readTemplate at hread
  dsimp only at hread
  split at hread
  · cases hread
  · next closed hskip =>
    cases hread
    obtain ⟨_, hcs, ⟨inner, close, rfl, hclose⟩, hcloses⟩ := closes_of_skipTemplate hskip
    rw [hrest] at hcs
    refine ⟨_, hcs, fun source' pos' rest' => ?_⟩
    have htext := (readTemplate_of_closes hclose hcloses source pos rest)
    rw [← hcs] at htext
    obtain ⟨hkind, htext, -⟩ := h.eq htext
    rw [hkind, htext]
    exact readTemplate_of_closes hclose hcloses source' pos' rest'

/-- A token is read in the same way whichever inert text follows. -/
theorem readToken_swap {source : Source} {pos : Cursor} {kind : TokenKind} {text : String}
    {y rest : List Char} (hd : Inert d) (hpos : pos.rest = y ++ d) (hy : y ≠ [])
    (h : Scans (readToken source pos) kind text (rest ++ d)) (hd' : Inert d') (source' : Source)
    (pos' : Cursor) (hpos' : pos'.rest = y ++ d') :
    Scans (readToken source' pos') kind text (rest ++ d') := by
  obtain ⟨c, cs, rfl⟩ := List.exists_cons_of_ne_nil hy
  unfold readToken at h ⊢
  simp only [hpos, hpos', List.cons_append] at h ⊢
  split at h
  · next hend =>
    obtain ⟨rfl, rfl, hrest⟩ := h.eq (scans_tokenOf _ _ _ _ _)
    rw [← List.cons_append] at hrest
    rw [if_pos hend, List.append_cancel_right hrest]
    exact scans_tokenOf _ _ _ _ _
  · next hend =>
    rw [if_neg hend]
    split at h
    · next hline =>
      obtain ⟨rfl, rfl, hrest⟩ := h.eq (scans_of_ok rfl)
      rw [if_pos hline, List.append_cancel_right hrest]
      exact scans_of_ok rfl
    · next hline =>
      rw [if_neg hline]
      split at h
      · next hquote =>
        rw [if_pos hquote]
        obtain ⟨w, hw, hread⟩ := readTemplate_swap h
        rw [← List.append_assoc] at hw
        rw [List.append_cancel_right hw, List.append_assoc]
        exact hread source' pos' _
      · next hquote =>
        rw [if_neg hquote]
        have hsymbol := symbolAt_append hd hy
        have hsymbol' := symbolAt_append hd' hy
        rw [List.cons_append] at hsymbol hsymbol'
        rw [hsymbol] at h
        rw [hsymbol']
        split at h
        · next s hs =>
          obtain ⟨rfl, rfl, hrest⟩ := h.eq (scans_tokenOf _ _ _ _ _)
          obtain ⟨-, -, -, w, hw⟩ := prefix_of_symbolAt hs
          have hdrop (d : List Char) : (c :: (cs ++ d)).drop s.length = w ++ d := by
            rw [← List.cons_append, ← hw, List.append_assoc, List.drop_left]
          rw [hdrop] at hrest
          rw [hdrop, List.append_cancel_right hrest]
          exact scans_tokenOf _ _ _ _ _
        · next hs =>
          split at h
          · next hdigit =>
            rw [if_pos hdigit]
            obtain ⟨z, hz, hread⟩ := readNumber_swap hd hpos h
            rw [List.append_cancel_right hz]
            exact hread d' hd' source' pos' hpos'
          · next hdigit =>
            rw [if_neg hdigit]
            split at h
            · next hstart =>
              rw [if_pos hstart]
              have hword : [' ', '\n', '\x7d'].any Text.isIdentifierPart = false := by decide
              obtain ⟨htake, hdrop⟩ := takeWhile_inert hword hd (c :: cs)
              obtain ⟨htake', hdrop'⟩ := takeWhile_inert hword hd' (c :: cs)
              rw [List.cons_append] at htake hdrop htake' hdrop'
              rw [htake, hdrop] at h
              obtain ⟨rfl, rfl, hrest⟩ := h.eq (scans_tokenOf _ _ _ _ _)
              rw [htake', hdrop', List.append_cancel_right hrest]
              exact scans_tokenOf _ _ _ _ _
            · obtain ⟨span, after, h, -⟩ := h
              cases h

/-- What is lexed with an inert text behind is lexed in the same way with another. -/
theorem lexes_of_next {source : Source} {pos after : Cursor} {t : Token} {z rest : List Char}
    (h : next source pos = .ok (t, after)) (hpos : pos.rest = z ++ d)
    (hafter : after.rest = rest ++ d) (hd : Inert d) (hd' : Inert d')
    (hend : t.kind = .eof → d = [] ∧ d' = []) :
    Lexes (z ++ d') t.kind t.text (rest ++ d') := by
  obtain ⟨mid, hgap, htoken⟩ := Except.bind_eq_ok.1 h
  obtain ⟨taken, htakes⟩ := takes_of_readToken htoken
  have hmid : mid.rest = taken ++ rest ++ d := by
    rw [htakes.passes.split, hafter, List.append_assoc]
  have hnil : taken ++ rest = [] → d = [] ∧ d' = [] := by
    intro hnil
    by_contra hne
    exact htakes.goes (fun heof => hne (hend heof)) (List.append_eq_nil_iff.1 hnil).1
  intro source' offset line col
  obtain ⟨mid', hgap', hmid'⟩ := skipGap_swap hgap hd' hmid hnil z hpos source' line col offset
    line col
  have hread : Scans (readToken source' mid') t.kind t.text (rest ++ d') := by
    have htoken := scans_of_ok htoken
    rw [hafter] at htoken
    by_cases hy : taken ++ rest = []
    · obtain ⟨rfl, rfl⟩ := hnil hy
      rw [hy] at hmid hmid'
      unfold readToken at htoken ⊢
      simp only [hmid, hmid', List.append_nil] at htoken ⊢
      obtain ⟨hkind, htext, hrest⟩ := htoken.eq (scans_tokenOf _ _ _ _ _)
      rw [hkind, htext, hrest]
      exact scans_tokenOf _ _ _ _ _
    · exact readToken_swap hd hmid hy htoken hd' source' mid' hmid'
  obtain ⟨span, after', hread, hrest⟩ := hread
  refine ⟨span, after', ?_, hrest⟩
  exact Except.bind_eq_ok.2 ⟨mid', hgap', hread⟩

/-- Where a token stands does not matter. -/
theorem lexes_of_eq_ok {source : Source} {pos after : Cursor} {t : Token}
    (h : next source pos = .ok (t, after)) : Lexes pos.rest t.kind t.text after.rest := by
  have hlexes := lexes_of_next h (List.append_nil _).symm (List.append_nil _).symm inert_nil
    inert_nil fun _ => ⟨rfl, rfl⟩
  rwa [List.append_nil, List.append_nil] at hlexes

end StaticConfig.Lexer
