import StaticConfig.Proofs.Numbers.Written
import StaticConfig.Proofs.Resolution.Arguments
import StaticConfig.Proofs.Resolution.Declared

/-!
The texts of module instances. Such a text can be read from the front in one way only: a name goes
on as long as identifiers do, a number ends at its bracket, and a quoted key at the first quote that
is not escaped. So paths of identifiers are told apart by their texts, whatever their keys are, and
an entry of the table of variables belongs to one instance.
-/
namespace StaticConfig

open StaticConfig.Except

namespace Text

/-- What comes before the first character without the property is the same in equal texts. -/
theorem append_inj_of_stop {p : Char → Bool} {as as' bs bs' : List Char}
    (has : ∀ c ∈ as, p c = true) (has' : ∀ c ∈ as', p c = true)
    (hbs : ∀ c ∈ bs.head?, p c = false) (hbs' : ∀ c ∈ bs'.head?, p c = false)
    (h : as ++ bs = as' ++ bs') : as = as' ∧ bs = bs' := by
  have hread {cs ds : List Char} (hcs : ∀ c ∈ cs, p c = true) (hds : ∀ c ∈ ds.head?, p c = false) :
      (cs ++ ds).takeWhile p = cs := by
    rw [List.takeWhile_append_of_pos hcs]
    cases ds with
    | nil => exact List.append_nil cs
    | cons d ds =>
      rw [List.takeWhile_cons_of_neg (by simp [hds d rfl]), List.append_nil]
  obtain rfl : as = as' := by rw [← hread has hbs, h, hread has' hbs']
  exact ⟨rfl, List.append_cancel_left h⟩

/-- The character that an escaped text shows first, with what comes behind it. At a quote that is
not escaped the text is at its end. -/
def unescape? : List Char → Option (Char × List Char)
  | '\\' :: 'u' :: '\x7b' :: cs =>
    match readNat 16 0 (cs.takeWhile (· ≠ '\x7d')), cs.dropWhile (· ≠ '\x7d') with
    | some n, _ :: rest => some (Char.ofNat n, rest)
    | _, _ => none
  | '\\' :: '0' :: cs => some ('\x00', cs)
  | '\\' :: 't' :: cs => some ('\t', cs)
  | '\\' :: 'r' :: cs => some ('\r', cs)
  | '\\' :: 'n' :: cs => some ('\n', cs)
  | '\\' :: c :: cs => some (c, cs)
  | '"' :: _ => none
  | c :: cs => some (c, cs)
  | [] => none

theorem unescape?_codeEscape (c : Char) (rest : List Char) :
    unescape? (codeEscape c ++ rest) = some (c, rest) := by
  have hdigits : Spells 16 c.toNat (Nat.toDigits 16 c.toNat) :=
    Builtin.Format.spells_toDigits (by decide) (Nat.le_refl 16) c.toNat
  have hbrace : ∀ d ∈ Nat.toDigits 16 c.toNat, decide (d ≠ '\x7d') = true := by
    intro d hd
    refine decide_eq_true ?_
    rintro rfl
    exact hdigits.not_mem (by decide) hd
  have hshape : codeEscape c ++ rest =
      '\\' :: 'u' :: '\x7b' :: (Nat.toDigits 16 c.toNat ++ '\x7d' :: rest) := by
    simp [codeEscape]
  rw [hshape, unescape?, List.takeWhile_append_of_pos hbrace, List.dropWhile_append_of_pos hbrace]
  simp [hdigits.read, Char.ofNat_toNat]

theorem unescape?_escapeChar (c : Char) (rest : List Char) :
    unescape? (escapeChar inspectStyle c ++ rest) = some (c, rest) := by
  unfold escapeChar
  split_ifs with hnul htab hreturn hnewline hslash hquote hsingle
  · obtain rfl : c = '\x00' := Char.toNat_inj.1 hnul
    rfl
  · rw [htab]
    rfl
  · rw [hreturn]
    rfl
  · rw [hnewline]
    rfl
  · rw [hslash]
    rfl
  · obtain rfl : c = '"' := by simpa [inspectStyle] using hquote
    rfl
  · simp [inspectStyle] at hsingle
  · exact unescape?_codeEscape c rest
  · have hplain : c ≠ '"' := by simpa [inspectStyle] using hquote
    simp [unescape?, hslash]
  · exact unescape?_codeEscape c rest

theorem unescape?_flatMap_cons (c : Char) (cs rest : List Char) :
    unescape? ((c :: cs).flatMap (escapeChar inspectStyle) ++ rest) =
      some (c, cs.flatMap (escapeChar inspectStyle) ++ rest) := by
  rw [List.flatMap_cons, List.append_assoc, unescape?_escapeChar]

/-- An escaped text that ends in a quote is read in one way. -/
theorem escaped_append_inj {cs cs' rest rest' : List Char}
    (h : cs.flatMap (escapeChar inspectStyle) ++ '"' :: rest =
      cs'.flatMap (escapeChar inspectStyle) ++ '"' :: rest') : cs = cs' ∧ rest = rest' := by
  have hread := congrArg unescape? h
  induction cs generalizing cs' with
  | nil =>
    cases cs' with
    | nil => exact ⟨rfl, (List.cons.inj h).2⟩
    | cons c' cs' =>
      rw [unescape?_flatMap_cons] at hread
      cases hread
  | cons c cs ih =>
    rw [unescape?_flatMap_cons] at hread
    cases cs' with
    | nil => cases hread
    | cons c' cs' =>
      rw [unescape?_flatMap_cons] at hread
      obtain ⟨rfl, htail⟩ := Prod.mk.inj (Option.some.inj hread)
      obtain ⟨rfl, hrest⟩ := ih htail (congrArg unescape? htail)
      exact ⟨rfl, hrest⟩

end Text

namespace InstanceKey

/-- The characters can stand behind a key: there are none, or they begin with the dot before
another step. -/
def Behind (rest : List Char) : Prop := ∀ c ∈ rest.head?, c = '.'

theorem toList_text_none : none.text.toList = [] := rfl

theorem toList_text_int (n : Int64) :
    (int n).text.toList = '[' :: (n.toInt.repr.toList ++ [']']) := by
  simp [text, Int.toString_eq_repr]

theorem toList_text_string (s : String) : (string s).text.toList =
    '[' :: '"' :: (s.toList.flatMap (Text.escapeChar Text.inspectStyle) ++ ['"', ']']) := by
  simp [text, Text.inspect]

theorem mem_repr {i : Int} {c : Char} (h : c ∈ i.repr.toList) : c = '-' ∨ c.isDigit = true := by
  have hdigits {m : Nat} (hc : c ∈ m.repr.toList) : c.isDigit = true := by
    rw [Nat.toList_repr] at hc
    exact Nat.isDigit_of_mem_toDigits (by decide) (Nat.le_refl 10) hc
  rw [Int.repr_eq_if] at h
  split at h
  · exact .inr (hdigits h)
  · rw [String.toList_append, List.mem_append] at h
    rcases h with h | h
    · exact .inl (List.mem_singleton.1 h)
    · exact .inr (hdigits h)

/-- Neither a bracket nor a quote is written in a number. -/
theorem ne_of_mem_repr {i : Int} {c d : Char} (h : c ∈ i.repr.toList) (hd : d ≠ '-')
    (hdigit : d.isDigit = false) : c ≠ d := by
  rintro rfl
  rcases mem_repr h with hc | hc
  · exact hd hc
  · rw [hdigit] at hc
    cases hc

/-- A key that is there is written in brackets. -/
theorem head?_text_append {k : InstanceKey} (hk : k ≠ none) (rest : List Char) :
    (k.text.toList ++ rest).head? = some '[' := by
  cases k with
  | none => exact absurd rfl hk
  | int n =>
    rw [toList_text_int]
    rfl
  | string s =>
    rw [toList_text_string]
    rfl

theorem eq_none_of_behind {k : InstanceKey} {rest : List Char}
    (h : Behind (k.text.toList ++ rest)) : k = none := by
  by_contra hk
  exact absurd (h '[' (head?_text_append hk rest)) (by decide)

/-- An identifier does not go on into a key. -/
theorem isIdentifierPart_head?_text_append (k : InstanceKey) {rest : List Char} (h : Behind rest) :
    ∀ c ∈ (k.text.toList ++ rest).head?, Text.isIdentifierPart c = false := by
  intro c hc
  by_cases hk : k = none
  · subst hk
    rw [h c hc]
    decide
  · obtain rfl : '[' = c := Option.some.inj ((head?_text_append hk rest).symm.trans hc)
    decide

theorem int_append_inj {n n' : Int64} {rest rest' : List Char}
    (h : (int n).text.toList ++ rest = (int n').text.toList ++ rest') : n = n' ∧ rest = rest' := by
  have hall (i : Int) : ∀ c ∈ i.repr.toList, decide (c ≠ ']') = true := fun c hc =>
    decide_eq_true (ne_of_mem_repr hc (by decide) (by decide))
  have hstop (cs : List Char) : ∀ c ∈ (']' :: cs).head?, decide (c ≠ ']') = false := by
    rintro c ⟨⟩
    rfl
  simp only [toList_text_int, List.cons_append, List.append_assoc, List.nil_append,
    List.cons.injEq, true_and] at h
  obtain ⟨hnumber, hrest⟩ :=
    Text.append_inj_of_stop (hall _) (hall _) (hstop rest) (hstop rest') h
  have htext : (Number.int n).text = (Number.int n').text := String.toList_injective hnumber
  have hread := Number.read_text n
  rw [htext, Number.read_text] at hread
  cases hread
  exact ⟨rfl, (List.cons.inj hrest).2⟩

theorem string_append_inj {s s' : String} {rest rest' : List Char}
    (h : (string s).text.toList ++ rest = (string s').text.toList ++ rest') :
    s = s' ∧ rest = rest' := by
  simp only [toList_text_string, List.cons_append, List.append_assoc, List.nil_append,
    List.cons.injEq, true_and] at h
  obtain ⟨hchars, hrest⟩ := Text.escaped_append_inj h
  exact ⟨String.toList_injective hchars, (List.cons.inj hrest).2⟩

/-- A number does not begin with a quote. -/
theorem int_append_ne_string_append (n : Int64) (s : String) (rest rest' : List Char) :
    (int n).text.toList ++ rest ≠ (string s).text.toList ++ rest' := by
  intro h
  simp only [toList_text_int, toList_text_string, List.cons_append, List.append_assoc,
    List.nil_append, List.cons.injEq, true_and] at h
  cases hnumber : n.toInt.repr.toList with
  | nil =>
    rw [hnumber] at h
    exact absurd (List.cons.inj h).1 (by decide)
  | cons c cs =>
    rw [hnumber] at h
    have hc : c ∈ n.toInt.repr.toList := hnumber ▸ List.mem_cons_self
    exact ne_of_mem_repr hc (by decide) (by decide) (List.cons.inj h).1

/-- The text of a key is read in one way. -/
theorem text_append_inj {k k' : InstanceKey} {rest rest' : List Char} (hrest : Behind rest)
    (hrest' : Behind rest') (h : k.text.toList ++ rest = k'.text.toList ++ rest') :
    k = k' ∧ rest = rest' := by
  cases k with
  | none =>
    have hbehind : Behind (k'.text.toList ++ rest') := by rwa [← h, toList_text_none]
    obtain rfl := eq_none_of_behind hbehind
    exact ⟨rfl, h⟩
  | int n =>
    cases k' with
    | none =>
      have hbehind : Behind ((int n).text.toList ++ rest) := by rwa [h, toList_text_none]
      cases eq_none_of_behind hbehind
    | int n' =>
      obtain ⟨rfl, hrest⟩ := int_append_inj h
      exact ⟨rfl, hrest⟩
    | string s' => exact absurd h (int_append_ne_string_append n s' rest rest')
  | string s =>
    cases k' with
    | none =>
      have hbehind : Behind ((string s).text.toList ++ rest) := by rwa [h, toList_text_none]
      cases eq_none_of_behind hbehind
    | int n' => exact absurd h.symm (int_append_ne_string_append n' s rest' rest)
    | string s' =>
      obtain ⟨rfl, hrest⟩ := string_append_inj h
      exact ⟨rfl, hrest⟩

end InstanceKey

namespace InstanceStep

/-- The text of the step in the text of a path. -/
def chars (s : InstanceStep) : List Char := ("module." ++ s.name ++ s.key.text).toList

variable {s s' : InstanceStep} {rest rest' : List Char}

theorem chars_append (s : InstanceStep) (rest : List Char) :
    s.chars ++ rest = "module.".toList ++ (s.name.toList ++ (s.key.text.toList ++ rest)) := by
  rw [chars, String.toList_append, String.toList_append, List.append_assoc, List.append_assoc]

/-- The text of a step is read in one way. -/
theorem chars_append_inj (hs : Text.isIdentifier s.name = true)
    (hs' : Text.isIdentifier s'.name = true) (hrest : InstanceKey.Behind rest)
    (hrest' : InstanceKey.Behind rest') (h : s.chars ++ rest = s'.chars ++ rest') :
    s = s' ∧ rest = rest' := by
  rw [chars_append, chars_append] at h
  obtain ⟨hname, hbehind⟩ := Text.append_inj_of_stop (Text.isIdentifierPart_of_mem hs)
    (Text.isIdentifierPart_of_mem hs') (s.key.isIdentifierPart_head?_text_append hrest)
    (s'.key.isIdentifierPart_head?_text_append hrest') (List.append_cancel_left h)
  obtain ⟨hkey, htail⟩ := InstanceKey.text_append_inj hrest hrest' hbehind
  refine ⟨?_, htail⟩
  cases s
  cases s'
  exact congrArg₂ mk (String.toList_injective hname) hkey

end InstanceStep

namespace ModuleInstance

/-- The calls on the path go by identifiers. -/
def Named (m : ModuleInstance) : Prop :=
  ∀ s ∈ m.steps, Text.isIdentifier s.name = true

/-- The texts of the steps, each behind a dot. -/
def dotted (steps : List InstanceStep) : List Char :=
  steps.flatMap fun s => '.' :: s.chars

theorem behind_dotted (steps : List InstanceStep) : InstanceKey.Behind (dotted steps) := by
  cases steps with
  | nil => exact nofun
  | cons s rest =>
    rintro c ⟨⟩
    rfl

theorem toList_text_cons (s : InstanceStep) (rest : List InstanceStep) :
    (text ⟨s :: rest⟩).toList = s.chars ++ dotted rest := by
  induction rest generalizing s with
  | nil =>
    rw [dotted, List.flatMap_nil, List.append_nil]
    rfl
  | cons t rest ih =>
    have htail := ih t
    rw [text, List.map_cons] at htail
    rw [text, List.map_cons, List.map_cons, String.intercalate_cons_cons, String.toList_append,
      String.toList_append, htail, List.append_assoc]
    rfl

theorem eq_of_dotted {steps steps' : List InstanceStep}
    (hsteps : ∀ s ∈ steps, Text.isIdentifier s.name = true)
    (hsteps' : ∀ s ∈ steps', Text.isIdentifier s.name = true)
    (h : dotted steps = dotted steps') : steps = steps' := by
  induction steps generalizing steps' with
  | nil =>
    cases steps' with
    | nil => rfl
    | cons s' rest' => cases h
  | cons s rest ih =>
    cases steps' with
    | nil => cases h
    | cons s' rest' =>
      obtain ⟨hs, hrest⟩ := List.forall_mem_cons.1 hsteps
      obtain ⟨hs', hrest'⟩ := List.forall_mem_cons.1 hsteps'
      have hchars : s.chars ++ dotted rest = s'.chars ++ dotted rest' := (List.cons.inj h).2
      obtain ⟨rfl, htail⟩ := InstanceStep.chars_append_inj hs hs' (behind_dotted rest)
        (behind_dotted rest') hchars
      rw [ih hrest hrest' htail]

/-- The text of each path but the root's begins with a step. -/
theorem dotted_steps {m : ModuleInstance} (h : m ≠ root) :
    dotted m.steps = '.' :: m.text.toList := by
  obtain ⟨_ | ⟨s, rest⟩⟩ := m
  · exact absurd rfl h
  · rw [toList_text_cons]
    rfl

theorem text_eq_empty_iff (m : ModuleInstance) : m.text = "" ↔ m = root := by
  constructor
  · intro h
    obtain ⟨_ | ⟨s, rest⟩⟩ := m
    · rfl
    · have hlt : (text root).length < (text ⟨[s]⟩).length := length_text_lt [] s
      have hle : (text ⟨[s]⟩).length ≤ (text ⟨s :: rest⟩).length := length_text_le [s] rest
      rw [h, String.length_empty] at hle
      omega
  · rintro rfl
    rfl

theorem eq_of_text {m m' : ModuleInstance} (hm : m.Named) (hm' : m'.Named)
    (h : m.text = m'.text) : m = m' := by
  by_cases hroot : m = root
  · rw [hroot]
    exact ((text_eq_empty_iff m').1 (h ▸ (text_eq_empty_iff m).2 hroot)).symm
  · have hroot' : m' ≠ root := fun heq =>
      hroot ((text_eq_empty_iff m).1 (h.trans ((text_eq_empty_iff m').2 heq)))
    have hdotted : dotted m.steps = dotted m'.steps := by
      rw [dotted_steps hroot, dotted_steps hroot', h]
    exact congrArg mk (eq_of_dotted hm hm' hdotted)

end ModuleInstance

/-! The paths of runners. -/

namespace Module

/-- The calls of the module go by identifiers. -/
def CallsNamed (m : Module) : Prop :=
  ∀ name ∈ m.calls.keys, Text.isIdentifier name = true

theorem isIdentifier_of_nameOf {b : Block} {kind name : String}
    (h : (nameOf b kind).result = some name) : Text.isIdentifier name = true := by
  unfold nameOf at h
  split at h
  · split at h
    · next hname =>
      have hhead : b.labels.head? = some name := h
      unfold checkName at hname
      split at hname
      · next hvalid =>
        rwa [List.getD_eq_getElem?_getD, ← List.head?_eq_getElem?, hhead] at hvalid
      · cases hname
    · cases h
  · cases h

theorem nameOf_of_readCall {library : Library} {b : Block} {c : ModuleCall}
    (h : (readCall library b).result = some c) : (nameOf b "module").result = some c.name := by
  unfold readCall at h
  rw [Report.bind_eq] at h
  dsimp only at h
  split at h
  · cases h
  · next name hname =>
    rw [hname]
    split at h
    · cases h
    · rw [Report.bind_eq] at h
      dsimp only at h
      split at h
      · cases h
      · split at h
        · cases h
        · cases h
          rfl

theorem callsNamed_ofBodies (library : Library) (dir : String) (files : List Body) :
    (ofBodies library dir files).result.CallsNamed := by
  refine calls_ofBodies (P := fun calls => ∀ name ∈ calls.keys, Text.isIdentifier name = true)
    (List.forall_mem_nil _) (fun calls b call hcalls hread name hname => ?_) dir files
  obtain ⟨e, he, rfl⟩ := List.mem_map.1 hname
  rcases mem_declare he with rfl | he
  · exact isIdentifier_of_nameOf (nameOf_of_readCall hread)
  · exact hcalls _ (List.mem_map_of_mem he)

end Module

namespace Loader

variable {l : Loader}

theorem ensures_callsNamed (dir : String) :
    Ensures (fun r => r.result.CallsNamed) (l.loadModule dir) := by
  refine ensures_then fun paths => ensures_then fun bodies => ensures_ok ?_
  exact Module.callsNamed_ofBodies l.library dir bodies

end Loader

namespace Runner

variable {library : Library} {tree : ModuleTree} {table : VariableTable} {session : Session}
  {r : Runner} {s : CallStack}

theorem named_of_obtained (htree : tree.Everywhere Module.CallsNamed)
    (h : Obtained library tree table session r s) : r.tree = tree ∧ r.path.Named := by
  induction h with
  | root => exact ⟨rfl, List.forall_mem_nil _⟩
  | eval _ _ _ ih => exact ih
  | expand _ _ _ ih => exact ih
  | children _ ih => exact ih
  | child hr hfound hc ih =>
    obtain ⟨hsame, hnamed⟩ := ih
    obtain ⟨-, ev, t, hruns⟩ := hr.runs
    have hcalls := hruns.succeeds_children.of_eq_ok hfound _ hc
    obtain ⟨name, hname, hpath⟩ := hcalls.path
    refine ⟨hcalls.tree.trans hsame, ?_⟩
    rw [hpath]
    refine List.forall_mem_append.2 ⟨hnamed, List.forall_mem_singleton.2 ?_⟩
    exact htree _ t (hsame ▸ hruns.found) name hname

end Runner

namespace Evaluator

/-- An entry for another instance is not seen. -/
theorem inputVariable_insert {ev : Evaluator} {m : ModuleInstance} (h : m.text ≠ ev.path.text)
    (values : Fields Value) (name : String) (span : Span) :
    { ev with table := ev.table.insert m.text values }.inputVariable name span =
      ev.inputVariable name span := by
  unfold inputVariable
  rw [Fields.get?_insert_of_ne (Ne.symm h)]
  rfl

end Evaluator

/-- Paths of identifiers are equal if their texts are, whatever keys they have, and only the root
has the empty text. So an entry of the table for one instance changes no entry for another, and none
of what the variables of another are. The paths of all runners that are obtained from a loaded
configuration are such paths. -/
theorem ModuleInstance.texts_identify_instances :
    (∀ m m' : ModuleInstance, m.Named → m'.Named → m.text = m'.text → m = m') ∧
    (∀ m : ModuleInstance, m.text = "" ↔ m = root) ∧
    (∀ (table : VariableTable) (values : Fields Value) (m m' : ModuleInstance),
      m.Named → m'.Named → m ≠ m' →
        (table.insert m.text values).get? m'.text = table.get? m'.text) ∧
    (∀ (ev : Evaluator) (values : Fields Value) (m : ModuleInstance),
      m.Named → ev.path.Named → m ≠ ev.path → ∀ name span,
        { ev with table := ev.table.insert m.text values }.inputVariable name span =
          ev.inputVariable name span) ∧
    ∀ (l : Loader) (loaded : Report ModuleTree), l.load = .ok loaded →
      ∀ library table session r s,
        Runner.Obtained library loaded.result table session r s → r.path.Named := by
  have hne {m m' : ModuleInstance} (hm : m.Named) (hm' : m'.Named) (h : m ≠ m') :
      m.text ≠ m'.text := fun heq => h (eq_of_text hm hm' heq)
  refine ⟨fun m m' => eq_of_text, text_eq_empty_iff, ?_, ?_, ?_⟩
  · intro table values m m' hm hm' h
    exact Fields.get?_insert_of_ne (hne hm' hm h.symm) values table
  · intro ev values m hm hev h
    exact Evaluator.inputVariable_insert (hne hm hev h) values
  · intro l loaded hload library table session r s hr
    have htree := Loader.everywhere_of_load Loader.ensures_callsNamed hload
    exact (Runner.named_of_obtained htree hr).2

/-- A key that looks like the end of a step and another step, and the root of an empty
configuration. -/
theorem ModuleInstance.texts_identify_instances_quotes :
    let m : ModuleInstance := ⟨[⟨"a", .string "x\"].module.b[\"y"⟩]⟩
    let m' : ModuleInstance := ⟨[⟨"a", .string "x"⟩, ⟨"b", .string "y"⟩]⟩
    let ev : Evaluator := ⟨⟨"default", "", .ok "/"⟩, m', Runner.callingTree, [], fun _ _ => none⟩
    let l : Loader := ⟨.ofFiles [] ["app"] [], fun _ _ => none, "app", default, []⟩
    m.text = "module.a[\"x\\\"].module.b[\\\"y\"]" ∧
      m'.text = "module.a[\"x\"].module.b[\"y\"]" ∧ m.text ≠ m'.text ∧
      (Fields.insert m.text [] []).get? m'.text = (none : Option (Fields Value)) ∧
      { ev with table := Fields.insert m.text [] [] }.inputVariable "zone" default =
        ev.inputVariable "zone" default ∧
      ∃ loaded, l.load = .ok loaded ∧
        (Runner.root l.library loaded.result [] ev.session).path.Named := by
  intro m m' ev l
  have hm : m.Named := List.forall_mem_singleton.2 (by decide +kernel)
  have hm' : m'.Named := List.forall_mem_cons.2 ⟨by decide +kernel,
    List.forall_mem_singleton.2 (by decide +kernel)⟩
  have hne : m ≠ m' := by decide
  obtain ⟨hidentify, -, htable, hvariables, hloaded⟩ := texts_identify_instances
  refine ⟨rfl, rfl, fun h => hne (hidentify m m' hm hm' h), htable [] [] m m' hm hm' hne,
    hvariables ev [] m hm hm' hne "zone" default, ?_⟩
  have hlist : l.files.list "app" = .ok [] := by decide
  have hload : l.load = .ok ⟨⟨[], Module.empty "app", [], none⟩, []⟩ := by
    have hlimit : l.depthLimit = 4097 + 1 := rfl
    rw [Loader.load, hlimit, Loader.loadWithin, Loader.loadModule, Loader.listed, hlist]
    rfl
  exact ⟨_, hload, hloaded l _ hload _ _ _ _ _ .root⟩

end StaticConfig
