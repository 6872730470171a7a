import StaticConfig.Proofs.Builtin.Call
import StaticConfig.Proofs.Builtin.Keeps

/-!
Functions on numbers, texts and documents keep what holds of all parts of their arguments, and so
does the whole library, apart from the function that adds a mark and the one that evaluates
expressions.
-/
namespace StaticConfig.Value.Hereditary

open StaticConfig.Builtin StaticConfig.Except

variable {P : Value → Prop}

mutual

theorem toValue (H : Hereditary P) : ∀ j : Json, P j.toValue
  | .null => H.null _
  | .bool b => H.bool b
  | .number (.int _) => H.number _
  | .number (.float _) => H.number _
  | .string s => H.string s
  | .array items => H.tuple.2 (H.toValues items)
  | .object members => H.object.2 fun p hp => H.toFields members p (Fields.mem_ofList hp)

theorem toValues (H : Hereditary P) : ∀ js : List Json, ∀ v ∈ Json.toValues js, P v
  | [], _, hv => nomatch hv
  | j :: js, v, hv => by
    rcases List.mem_cons.1 hv with rfl | hv
    · exact H.toValue j
    · exact H.toValues js v hv

theorem toFields (H : Hereditary P) :
    ∀ members : List (String × Json), ∀ p ∈ Json.toFields members, P p.2
  | [], _, hp => nomatch hp
  | (k, j) :: rest, p, hp => by
    rcases List.mem_cons.1 hp with rfl | hp
    · exact H.toValue j
    · exact H.toFields rest p hp

end

theorem reader (H : Hereditary P) {read : String → Option Json} {error : CallError} :
    Keeps P (Encodings.reader read error) := by
  refine keeps_unary fun _ _ => ensures_then fun s => ?_
  split
  · exact ensures_ok (H.toValue _)
  · exact ensures_error

theorem writer (H : Hereditary P) {write : Json → String} : Keeps P (Encodings.writer write) := by
  refine keeps_unary fun a _ => ?_
  split
  · exact ensures_ok (H.string _)
  · exact ensures_error

theorem keeps_encodings (H : Hereditary P) : ∀ p ∈ Encodings.functions, Keeps P p.2 := by
  simp only [Encodings.functions, List.forall_mem_cons]
  refine ⟨?base64decode, ?base64encode, H.reader, H.writer, H.reader, H.writer,
    List.forall_mem_nil _⟩
  case base64decode =>
    refine keeps_unary fun _ _ => ensures_then fun s => ?_
    split
    · exact ensures_error
    · split
      · exact ensures_ok (H.string _)
      · exact ensures_error
  case base64encode => exact keeps_unary fun _ _ => ensures_then fun _ => ensures_ok (H.string _)

theorem parseint (H : Hereditary P) {text base : Value} :
    Ensures P (Numbers.parseint text base) := by
  refine ensures_then fun s => ensures_then fun b => ?_
  split
  · exact ensures_error
  · split
    · exact ensures_ok (H.number _)
    · exact ensures_error

theorem keeps_numbers (H : Hereditary P) : ∀ p ∈ Numbers.functions, Keeps P p.2 := by
  have number {n : Number} : Ensures P (Numbers.number n) := ensures_ok (H.number n)
  simp only [Numbers.functions, List.forall_mem_cons]
  refine ⟨keeps_unary fun _ _ => ?_, keeps_unary fun _ _ => ?_, keeps_unary fun _ _ => ?_,
    keeps_variadicFrom fun _ _ _ _ => ?_, keeps_variadicFrom fun _ _ _ _ => ?_,
    keeps_binary fun _ _ _ _ => H.parseint, keeps_binary fun _ _ _ _ => ?_,
    keeps_unary fun _ _ => ?_, List.forall_mem_nil _⟩
  · exact ensures_then fun _ => number
  · exact ensures_then fun _ => number
  · exact ensures_then fun _ => number
  · exact ensures_then fun _ => ensures_then fun _ => number
  · exact ensures_then fun _ => ensures_then fun _ => number
  · exact ensures_then fun _ => ensures_then fun _ => number
  · exact ensures_then fun _ => number

theorem onText (H : Hereditary P) {f : String → String} : Keeps P (Texts.onText f) :=
  keeps_unary fun _ _ => ensures_then fun _ => ensures_ok (H.string _)

theorem onTexts {ty : Ty} {f : String → String → Value} (h : ∀ s t, P (f s t)) :
    Keeps P (Texts.onTexts ty f) :=
  keeps_binary fun _ _ _ _ => ensures_then fun _ => ensures_then fun _ => ensures_ok (h _ _)

theorem of_mem_mapIdx {α : Type} {f : Nat → α → Value} {l : List α} (h : ∀ i a, P (f i a)) :
    ∀ v ∈ l.mapIdx f, P v := by
  intro v hv
  obtain ⟨i, _, rfl⟩ := List.mem_mapIdx.1 hv
  exact h _ _

theorem matchValue (H : Hereditary P) {names : List (Option String)} {text : List Char}
    {m : Pattern.Match} : P (Texts.matchValue names text m) := by
  simp only [Texts.matchValue]
  split
  · split
    · exact H.string _
    · exact H.null _
  split
  · refine H.object.2 fun p hp => ?_
    refine of_mem_mapIdx (fun i _ => ?_) p.2 (List.of_mem_zip (Fields.mem_ofList hp)).2
    split
    · exact H.string _
    · exact H.null _
  · refine H.list.2 (of_mem_mapIdx fun i _ => ?_)
    split
    · exact H.string _
    · exact H.null _

theorem replace (H : Hereditary P) {s piece replacement : Value} :
    Ensures P (Texts.replace s piece replacement) := by
  refine ensures_then fun _ => ensures_then fun _ => ensures_then fun _ => ?_
  split
  · exact ensures_then fun _ => ensures_ok (H.string _)
  · exact ensures_ok (H.string _)

theorem regex (H : Hereditary P) {pattern s : Value} : Ensures P (Texts.regex pattern s) := by
  refine ensures_then fun _ => ensures_then fun _ => ensures_then fun _ => ?_
  split
  · exact ensures_ok H.matchValue
  · exact ensures_error

theorem regexall (H : Hereditary P) {pattern s : Value} :
    Ensures P (Texts.regexall pattern s) := by
  refine ensures_then fun _ => ensures_then fun _ => ensures_then fun _ => ?_
  refine ensures_ok (H.listOrTuple fun v hv => ?_)
  obtain ⟨m, _, rfl⟩ := List.mem_map.1 hv
  exact H.matchValue

theorem join (H : Hereditary P) {args : List Value} : Ensures P (Texts.join args) := by
  cases args with
  | nil => exact ensures_error
  | cons sep lists =>
    exact ensures_then fun _ => ensures_then fun _ => ensures_ok (H.string _)

theorem keeps_texts (H : Hereditary P) : ∀ p ∈ Texts.functions, Keeps P p.2 := by
  simp only [Texts.functions, List.forall_mem_cons]
  refine ⟨H.onText, onTexts fun _ _ => H.bool _, keeps_variadicFrom fun _ _ _ _ => ?format,
    keeps_variadic fun _ _ => H.join, H.onText, keeps_binary fun _ _ _ _ => H.regex,
    keeps_binary fun _ _ _ _ => H.regexall, keeps_ternary fun _ _ _ _ _ _ => H.replace,
    onTexts fun _ _ => H.strings _, onTexts fun _ _ => H.bool _, H.onText,
    keeps_ternary fun _ _ _ _ _ _ => ?substr, H.onText, onTexts fun _ _ => H.string _,
    onTexts fun _ _ => H.string _, H.onText, onTexts fun _ _ => H.string _, H.onText,
    List.forall_mem_nil _⟩
  case format => exact ensures_then fun _ => ensures_then fun _ => ensures_ok (H.string _)
  case substr =>
    exact ensures_then fun _ => ensures_then fun _ => ensures_then fun _ => ensures_then fun _ =>
      ensures_ok (H.string _)

theorem into (H : Hereditary P) {ty : Ty} : Keeps P (Conversions.into ty) :=
  keeps_withUnknown (keeps_unary fun _ ha => H.converted ha)

theorem nonsensitive (H : Hereditary P) {v : Value} (hv : P v) :
    Ensures P (Conversions.nonsensitive v) := by
  rw [Conversions.nonsensitive]
  split
  · exact ensures_error
  · cases v with
    | sensitive v => exact ensures_ok (H.inner hv)
    | _ => exact ensures_ok hv

theorem issensitive (H : Hereditary P) {v : Value} (hv : P v) :
    Ensures P (Conversions.issensitive v) := by
  rw [Conversions.issensitive]
  split
  · exact ensures_ok (H.bool _)
  split
  · exact ensures_ok (H.bool _)
  · rename_i hk
    exact ensures_ok (H.unknown_of_isKnown v hv (Bool.not_eq_true _ ▸ hk) _)

theorem keeps_conversions (H : Hereditary P) : ∀ p ∈ Conversions.functions,
    (p.1 = "sensitive" → ∀ v, P v → P v.mark) → Keeps P p.2 := by
  simp only [Conversions.functions, List.forall_mem_cons]
  exact ⟨fun _ => H.into, fun _ => H.into, fun _ => H.into, fun _ => H.into, fun _ => H.into,
    fun _ => H.into,
    fun _ => keeps_withUnknown (keeps_withMarked (keeps_unary fun _ => H.issensitive)),
    fun _ => keeps_withUnknown (keeps_withMarked (keeps_unary fun _ => H.nonsensitive)),
    fun hmark => keeps_withUnknown (keeps_withMarked (keeps_unary fun a ha =>
      ensures_ok (hmark trivial a ha))), List.forall_mem_nil _⟩

theorem encode (H : Hereditary P) {v : Value} : Ensures P (Definitions.encode v) := by
  rw [Definitions.encode]
  split
  · exact ensures_error
  split
  · exact ensures_map fun _ _ => H.string _
  · exact ensures_error

theorem keeps_definitions (H : Hereditary P) {evaluate : Expr → Report Value} :
    ∀ p ∈ Definitions.functions evaluate, (p.1 = "provider::terraform::decode_tfvars" →
      ∀ v, P v → Ensures P (Definitions.decode evaluate v)) → Keeps P p.2 := by
  simp only [Definitions.functions, List.forall_mem_cons]
  exact ⟨fun hdecode => keeps_unary (hdecode trivial),
    fun _ => keeps_unary fun _ _ => ensures_map fun _ _ => H.string _,
    fun _ => keeps_unary fun _ _ => H.encode, List.forall_mem_nil _⟩

theorem keeps_impure (H : Hereditary P) {ambient : Library.Ambient} {site : Span} :
    ∀ p ∈ Library.impureFunctions ambient site, Keeps P p.2 := by
  simp only [Library.impureFunctions, List.forall_mem_cons]
  exact ⟨fun _ _ => ensures_ok (H.string _), fun _ _ => ensures_ok (H.string _),
    List.forall_mem_nil _⟩

/-- The functions of the library make up no parts of values but nulls, texts, numbers and truth
values, apart from the mark that one of them adds and the values that one of them evaluates. -/
theorem keeps_withEvaluator (H : Hereditary P) {ambient : Library.Ambient} {site : Span}
    {evaluate : Expr → Report Value} {name : String} {f : Builtin}
    (h : Library.withEvaluator ambient evaluate site name = some f)
    (hmark : name = "sensitive" → ∀ v, P v → P v.mark)
    (hdecode : name = "provider::terraform::decode_tfvars" →
      ∀ v, P v → Ensures P (Definitions.decode evaluate v)) : Keeps P f :=
  Library.of_withEvaluator (P := fun name f => (name = "sensitive" → ∀ v, P v → P v.mark) →
      (name = "provider::terraform::decode_tfvars" →
        ∀ v, P v → Ensures P (Definitions.decode evaluate v)) → Keeps P f)
    (fun p hp _ _ => H.keeps_collections p hp) (fun p hp hmark _ => H.keeps_conversions p hp hmark)
    (fun p hp _ _ => H.keeps_encodings p hp) (fun p hp _ _ => H.keeps_numbers p hp)
    (fun p hp _ _ => H.keeps_texts p hp) (fun p hp _ hdecode => H.keeps_definitions p hp hdecode)
    (fun p hp _ _ => H.keeps_impure p hp) h hmark hdecode

theorem keeps_standard (H : Hereditary P) {ambient : Library.Ambient} {site : Span}
    {name : String} {f : Builtin} (h : Library.standard ambient site name = some f)
    (hmark : name ≠ "sensitive") (hdecode : name ≠ "provider::terraform::decode_tfvars") :
    Keeps P f :=
  H.keeps_withEvaluator h (fun hname => absurd hname hmark) fun hname => absurd hname hdecode

end StaticConfig.Value.Hereditary
