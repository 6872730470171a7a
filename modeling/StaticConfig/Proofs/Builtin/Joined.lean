import StaticConfig.Proofs.Builtin.Arguments
import StaticConfig.Proofs.Builtin.Call
import StaticConfig.Proofs.Conversion.Exact

/-!
Texts in parts. Splitting a text finds the occurrences of the separator from the left, so no part
has an occurrence that begins before the one behind it. Joined again the parts are the text, and
parts whose separators are the only ones in the joined text are found again.
-/
namespace StaticConfig

namespace Text

variable {sep part rest text : List Char} {parts : List (List Char)}

/-- The separator behind the part is its first occurrence. -/
def FirstBehind (sep part : List Char) : Prop :=
  ∀ before after, part ++ sep = before ++ sep ++ after → after = []

/-- The parts between the occurrences of the separator that are found from the left. -/
inductive Parted (sep : List Char) : List (List Char) → List Char → Prop
  | last {part : List Char} : ¬sep <:+: part → Parted sep [part] part
  | more {part rest : List Char} {parts : List (List Char)} : FirstBehind sep part →
    Parted sep parts rest → Parted sep (part :: parts) (part ++ sep ++ rest)

theorem firstBehind_nil (sep : List Char) : FirstBehind sep [] := by
  intro before after h
  have hlength := congrArg List.length h
  simp only [List.length_append, List.length_nil] at hlength
  exact List.eq_nil_of_length_eq_zero (by omega)

theorem firstBehind_cons_iff {c : Char} : FirstBehind sep (c :: part) ↔
    ¬sep <+: c :: part ++ sep ∧ FirstBehind sep part := by
  constructor
  · intro h
    refine ⟨fun hstart => ?_, fun before after hsplit => ?_⟩
    · obtain ⟨after, hafter⟩ := hstart
      have hnone : after = [] := h [] after hafter.symm
      rw [hnone, List.append_nil] at hafter
      have hlength := congrArg List.length hafter
      simp only [List.length_append, List.length_cons] at hlength
      omega
    · refine h (c :: before) after ?_
      rw [List.cons_append, hsplit]
      rfl
  · rintro ⟨hstart, hrest⟩ before after hsplit
    cases before with
    | nil => exact absurd ⟨after, hsplit.symm⟩ hstart
    | cons d before => exact hrest before after (List.cons.inj hsplit).2

/-- A separator that occurs has a first occurrence. -/
theorem exists_firstBehind (h : sep <:+: text) :
    ∃ part rest, text = part ++ sep ++ rest ∧ FirstBehind sep part := by
  induction text with
  | nil =>
    obtain rfl : sep = [] := List.infix_nil.1 h
    exact ⟨[], [], rfl, firstBehind_nil []⟩
  | cons c cs ih =>
    by_cases hstart : sep <+: c :: cs
    · obtain ⟨rest, hrest⟩ := hstart
      exact ⟨[], rest, hrest.symm, firstBehind_nil sep⟩
    · obtain ⟨part, rest, hsplit, hfirst⟩ := ih ((List.infix_cons_iff.1 h).resolve_left hstart)
      refine ⟨c :: part, rest, by rw [hsplit]; rfl, firstBehind_cons_iff.2 ⟨?_, hfirst⟩⟩
      intro hearlier
      refine hstart (hearlier.trans ⟨rest, ?_⟩)
      rw [hsplit]
      rfl

theorem exists_parted (hsep : sep ≠ []) (text : List Char) : ∃ parts, Parted sep parts text := by
  induction hlength : text.length using Nat.strong_induction_on generalizing text with
  | _ length ih =>
    by_cases h : sep <:+: text
    · obtain ⟨part, rest, hsplit, hfirst⟩ := exists_firstBehind h
      have hshorter : rest.length < length := by
        have hpos := List.length_pos_of_ne_nil hsep
        rw [← hlength, hsplit, List.length_append, List.length_append]
        omega
      obtain ⟨parts, hparts⟩ := ih rest.length hshorter rest rfl
      rw [hsplit]
      exact ⟨part :: parts, .more hfirst hparts⟩
    · exact ⟨[text], .last h⟩

/-- The rest of an occurrence is passed over. -/
theorem splitFrom_skip (sep found part rest : List Char) :
    splitFrom sep found.length part (found ++ rest) = splitFrom sep 0 part rest := by
  induction found with
  | nil => rfl
  | cons c found ih => exact ih

theorem splitFrom_of_not_infix (h : ¬sep <:+: text) (part : List Char) :
    splitFrom sep 0 part text = [part.reverse ++ text] := by
  induction text generalizing part with
  | nil => rw [splitFrom, List.append_nil]
  | cons c cs ih =>
    obtain ⟨hstart, hrest⟩ := not_or.1 (mt List.infix_cons_iff.2 h)
    rw [splitFrom, if_neg (mt List.isPrefixOf_iff_prefix.1 hstart), ih hrest]
    simp

theorem splitFrom_of_firstBehind (hsep : sep ≠ []) {middle : List Char}
    (h : FirstBehind sep middle) (part rest : List Char) :
    splitFrom sep 0 part (middle ++ sep ++ rest) =
      (part.reverse ++ middle) :: splitFrom sep 0 [] rest := by
  induction middle generalizing part with
  | nil =>
    obtain ⟨c, found, rfl⟩ := List.exists_cons_of_ne_nil hsep
    have hstart : (c :: found).isPrefixOf (c :: (found ++ rest)) = true :=
      List.isPrefixOf_iff_prefix.2 ⟨rest, rfl⟩
    rw [List.nil_append, List.cons_append, splitFrom, if_pos hstart, List.length_cons,
      Nat.add_sub_cancel, splitFrom_skip, List.append_nil]
  | cons c middle ih =>
    obtain ⟨hstart, hmiddle⟩ := firstBehind_cons_iff.1 h
    have hnone : ¬sep.isPrefixOf (c :: (middle ++ sep ++ rest)) = true := by
      intro hprefix
      have hprefix : sep <+: (c :: middle ++ sep) ++ rest := List.isPrefixOf_iff_prefix.1 hprefix
      refine hstart (List.prefix_of_prefix_length_le hprefix ⟨rest, rfl⟩ ?_)
      rw [List.length_append]
      omega
    rw [List.cons_append, List.cons_append, splitFrom, if_neg hnone, ih hmiddle]
    simp

theorem Parted.splitFrom_eq (hsep : sep ≠ []) (h : Parted sep parts text) :
    splitFrom sep 0 [] text = parts := by
  induction h with
  | last hnone => exact splitFrom_of_not_infix hnone []
  | more hfirst _ ih => rw [splitFrom_of_firstBehind hsep hfirst, ih]; rfl

theorem Parted.ne_nil (h : Parted sep parts text) : parts ≠ [] := by
  cases h with
  | last => exact List.cons_ne_nil _ _
  | more => exact List.cons_ne_nil _ _

theorem Parted.intercalate_eq (h : Parted sep parts text) : sep.intercalate parts = text := by
  induction h with
  | last => exact List.intercalate_singleton
  | more _ hparts ih => rw [List.intercalate_cons_of_ne_nil hparts.ne_nil, ih]

theorem intercalate_singletons (cs : List Char) :
    List.intercalate [] (cs.map fun c => [c]) = cs := by
  induction cs with
  | nil => rfl
  | cons c cs ih =>
    by_cases hcs : cs = []
    · rw [hcs]
      rfl
    · rw [List.map_cons, List.intercalate_cons_of_ne_nil (mt List.map_eq_nil_iff.1 hcs), ih]
      rfl

section Joins

variable {sep x : String} {xs : List String}

/-- Every occurrence of the separator in the joined text stands between two of the parts. -/
def OnlyBetween (sep : String) (xs : List String) : Prop :=
  ∀ before after : String, String.intercalate sep xs = before ++ sep ++ after →
    ∃ front back, front ≠ [] ∧ back ≠ [] ∧ xs = front ++ back ∧
      before = String.intercalate sep front

theorem OnlyBetween.not_infix (h : OnlyBetween sep [x]) : ¬sep.toList <:+: x.toList := by
  rintro ⟨before, after, hsplit⟩
  obtain ⟨front, back, hfront, hback, hxs, -⟩ := h (String.ofList before) (String.ofList after) (by
    rw [String.intercalate_singleton, ← String.toList_inj, ← hsplit]
    simp)
  have hlength := congrArg List.length hxs
  have hfront := List.length_pos_of_ne_nil hfront
  have hback := List.length_pos_of_ne_nil hback
  rw [List.length_append, List.length_singleton] at hlength
  omega

theorem OnlyBetween.firstBehind (h : OnlyBetween sep (x :: xs)) (hxs : xs ≠ []) :
    FirstBehind sep.toList x.toList := by
  intro before after hsplit
  obtain ⟨front, back, hfront, -, hparts, hbefore⟩ :=
    h (String.ofList before) (String.ofList after ++ String.intercalate sep xs) (by
      rw [String.intercalate_cons_of_ne_nil hxs, ← String.toList_inj]
      simp only [String.toList_append, String.toList_ofList, hsplit, List.append_assoc])
  -- What stands before the occurrence is at least the first part.
  obtain ⟨y, front, rfl⟩ := List.exists_cons_of_ne_nil hfront
  obtain ⟨rfl, -⟩ := List.cons.inj hparts
  have hle : x.toList.length ≤ before.length := by
    have hlist := congrArg (List.length ∘ String.toList) hbefore
    simp only [Function.comp_apply, String.toList_ofList] at hlist
    rw [hlist]
    by_cases hmore : front = []
    · rw [hmore, String.intercalate_singleton]
    · rw [String.intercalate_cons_of_ne_nil hmore, String.toList_append, String.toList_append,
        List.length_append, List.length_append]
      omega
  have hlength := congrArg List.length hsplit
  simp only [List.length_append] at hlength
  exact List.eq_nil_of_length_eq_zero (by omega)

theorem OnlyBetween.tail (hsep : sep ≠ "") (h : OnlyBetween sep (x :: xs)) (hxs : xs ≠ []) :
    OnlyBetween sep xs := by
  intro before after hsplit
  obtain ⟨front, back, hfront, hback, hparts, hbefore⟩ := h (x ++ sep ++ before) after (by
    rw [String.intercalate_cons_of_ne_nil hxs, hsplit]
    simp only [String.append_assoc])
  obtain ⟨y, front, rfl⟩ := List.exists_cons_of_ne_nil hfront
  obtain ⟨rfl, hrest⟩ := List.cons.inj hparts
  by_cases hmore : front = []
  · -- The separator would have to be empty.
    have hlength := congrArg (List.length ∘ String.toList) hbefore
    have hpos := List.length_pos_of_ne_nil (mt String.toList_eq_nil_iff.1 hsep)
    simp only [hmore, String.intercalate_singleton, Function.comp_apply, String.toList_append,
      List.length_append] at hlength
    omega
  · rw [String.intercalate_cons_of_ne_nil hmore, String.append_right_inj] at hbefore
    exact ⟨front, back, hmore, hback, hrest, hbefore⟩

theorem OnlyBetween.parted (hsep : sep ≠ "") (hxs : xs ≠ []) (h : OnlyBetween sep xs) :
    Parted sep.toList (xs.map String.toList) (String.intercalate sep xs).toList := by
  induction xs with
  | nil => exact absurd rfl hxs
  | cons x xs ih =>
    by_cases hmore : xs = []
    · subst hmore
      rw [String.intercalate_singleton]
      exact .last h.not_infix
    · rw [String.intercalate_cons_of_ne_nil hmore, String.toList_append, String.toList_append]
      exact .more (h.firstBehind hmore) (ih hmore (h.tail hsep hmore))

theorem split_of_parted (hsep : sep ≠ "") {text : String}
    (h : Parted sep.toList (xs.map String.toList) text.toList) : split sep text = xs := by
  have hne : sep.toList ≠ [] := mt String.toList_eq_nil_iff.1 hsep
  rw [split, if_neg (mt String.isEmpty_iff.1 hsep), h.splitFrom_eq hne, List.map_map]
  exact List.map_id'' (fun _ => String.ofList_toList) xs

/-- The parts of a text, joined again, are the text. -/
theorem intercalate_split (sep text : String) : String.intercalate sep (split sep text) = text := by
  by_cases hsep : sep = ""
  · subst hsep
    have hchars : (text.toList.map String.singleton).map String.toList =
        text.toList.map fun c => [c] := by
      rw [List.map_map]
      exact List.map_congr_left fun c _ => String.toList_singleton c
    have hsplit : split "" text = text.toList.map String.singleton := rfl
    rw [← String.toList_inj, String.toList_intercalate, hsplit, hchars]
    exact intercalate_singletons text.toList
  · obtain ⟨parts, hparts⟩ := exists_parted (mt String.toList_eq_nil_iff.1 hsep) text.toList
    have hlists : (parts.map String.ofList).map String.toList = parts := by
      rw [List.map_map]
      exact List.map_id'' (fun _ => String.toList_ofList) parts
    have hsplit : split sep text = parts.map String.ofList :=
      split_of_parted hsep (hlists.symm ▸ hparts)
    rw [hsplit, ← String.toList_inj, String.toList_intercalate, hlists, hparts.intercalate_eq]

/-- Parts are found again where the separators between them are the only ones. -/
theorem split_intercalate (hsep : sep ≠ "") (hxs : xs ≠ []) (h : OnlyBetween sep xs) :
    split sep (String.intercalate sep xs) = xs :=
  split_of_parted hsep (h.parted hsep hxs)

end Joins

end Text

namespace Builtin.Texts

theorem joinable_texts (index : Nat) (xs : List String) :
    joinable index (xs.map Value.string) = .ok xs := by
  induction xs with
  | nil => rfl
  | cons x xs ih =>
    have hnull : ¬(Value.string x).isNull = true := Bool.false_ne_true
    rw [List.map_cons, joinable, if_neg hnull, asString_string, ih]
    rfl

end Builtin.Texts

namespace Eval

open Value Builtin

variable {ambient : Library.Ambient} {pureOnly : Bool} {span : Span} {v : Value}
  {xs : List String}

/-- The value is a list or a tuple of the texts. -/
def IsTexts (v : Value) (xs : List String) : Prop :=
  v = .strings xs ∨ v = .tuple (xs.map .string)

theorem IsTexts.exact (h : IsTexts v xs) : v.Exact := by
  have hitems : ∀ w ∈ xs.map Value.string, w.Exact :=
    List.forall_mem_map.2 fun _ _ => .string
  rcases h with rfl | rfl
  · exact .list hitems
  · exact .tuple hitems

theorem IsTexts.isWhollyKnown (h : IsTexts v xs) : v.isWhollyKnown = true := by
  have hitems : allKnown (xs.map Value.string) = true :=
    allKnown_iff.2 (List.forall_mem_map.2 fun _ _ => rfl)
  rcases h with rfl | rfl
  · exact hitems
  · exact hitems

theorem IsTexts.asSequence (h : IsTexts v xs) : asSequence v = .ok (xs.map .string) := by
  rcases h with rfl | rfl
  · rfl
  · rfl

theorem callNamed_split (sep text : String) :
    callNamed ⟨Library.standard ambient, pureOnly⟩ "split" [.string sep, .string text] span =
      .ok (.strings (Text.split sep text)) := rfl

theorem callNamed_join (sep : String) (h : IsTexts v xs) :
    callNamed ⟨Library.standard ambient, pureOnly⟩ "join" [.string sep, v] span =
      .ok (.string (String.intercalate sep xs)) := by
  have hrun : Texts.join [.string sep, v] = .ok (.string (String.intercalate sep xs)) := by
    rw [Texts.join, Texts.joinableLists, h.asSequence, asString_string]
    simp only [bind, Except.bind, Texts.joinable_texts, Texts.joinableLists, List.append_nil]
  have hexact : ∀ w ∈ [.string sep, v], w.Exact :=
    List.forall_mem_cons.2 ⟨.string, List.forall_mem_singleton.2 h.exact⟩
  have hknown : allKnown [.string sep, v] = true :=
    allKnown_iff.2 (List.forall_mem_cons.2 ⟨rfl, List.forall_mem_singleton.2 h.isWhollyKnown⟩)
  have hmark : anyMark [.string sep, v] = false :=
    anyMark_iff.2 fun w hw => hasMark_of_exact (hexact w hw)
  have hcall : (variadic 2 .string Texts.join).call pureOnly [.string sep, v] =
      .ok (.string (String.intercalate sep xs)) :=
    (call_eq_run rfl rfl (.inr hknown) (bareAll_of_exact hexact) hmark pureOnly).trans hrun
  exact callNamed_of_call rfl hcall

/-- Joining the parts of any text with any separator gives the text. Joined texts are split into the
same texts again if they are at least one, and the separator is not empty and occurs only where they
are joined. -/
theorem split_join_inverse (s : Library.Ambient) (pureOnly : Bool) (span : Span) :
    let setting : Setting := ⟨Library.standard s, pureOnly⟩
    (∀ sep text : String, ∃ parts,
      callNamed setting "split" [.string sep, .string text] span = .ok parts ∧
        callNamed setting "join" [.string sep, parts] span = .ok (.string text)) ∧
    ∀ (sep : String) (xs : List String) (v : Value), sep ≠ "" → xs ≠ [] →
      Text.OnlyBetween sep xs → IsTexts v xs → ∃ text,
        callNamed setting "join" [.string sep, v] span = .ok (.string text) ∧
          callNamed setting "split" [.string sep, .string text] span = .ok (.strings xs) := by
  constructor
  · intro sep text
    refine ⟨_, callNamed_split sep text, ?_⟩
    rw [callNamed_join sep (.inl rfl), Text.intercalate_split]
  · intro sep xs v hsep hxs honly hv
    refine ⟨_, callNamed_join sep hv, ?_⟩
    rw [callNamed_split, Text.split_intercalate hsep hxs honly]

/-- The first and the last part share characters with the separators beside them. -/
theorem onlyBetween_overlapping : Text.OnlyBetween "ab" ["a", "", "b"] := by
  intro before after h
  have hlist : "aababb".toList = before.toList ++ "ab".toList ++ after.toList := by
    rw [← String.toList_append, ← String.toList_append, ← h]
    decide
  have hfront : before.toList = "aababb".toList.take before.length := by
    rw [hlist, ← String.length_toList, List.append_assoc, List.take_left]
  have hstart : "ab".toList <+: "aababb".toList.drop before.length := by
    rw [hlist, ← String.length_toList, List.append_assoc, List.drop_left]
    exact List.prefix_append _ _
  have hplaces : ∀ n < 7, "ab".toList <+: "aababb".toList.drop n → n = 1 ∨ n = 3 := by decide
  have htotal : "aababb".toList.length = 6 := by decide
  have hlength := congrArg List.length hlist
  rw [htotal, List.length_append, List.length_append, String.length_toList] at hlength
  rcases hplaces before.length (by omega) hstart with hone | hthree
  · rw [hone] at hfront
    exact ⟨["a"], ["", "b"], List.cons_ne_nil _ _, List.cons_ne_nil _ _, rfl,
      String.toList_inj.1 hfront⟩
  · rw [hthree] at hfront
    exact ⟨["a", ""], ["b"], List.cons_ne_nil _ _, List.cons_ne_nil _ _, rfl,
      String.toList_inj.1 hfront⟩

theorem split_join_inverse_overlapping :
    Text.OnlyBetween "ab" ["a", "", "b"] ∧ ∃ text,
      callNamed ⟨Library.standard ⟨"", fun _ => ""⟩, false⟩ "join"
        [.string "ab", .tuple [.string "a", .string "", .string "b"]] default =
          .ok (.string text) ∧
      callNamed ⟨Library.standard ⟨"", fun _ => ""⟩, false⟩ "split"
        [.string "ab", .string text] default = .ok (.strings ["a", "", "b"]) :=
  ⟨onlyBetween_overlapping, (split_join_inverse ⟨"", fun _ => ""⟩ false default).2 "ab"
    ["a", "", "b"] _ (by decide) (List.cons_ne_nil _ _) onlyBetween_overlapping (.inr rfl)⟩

end Eval

end StaticConfig
