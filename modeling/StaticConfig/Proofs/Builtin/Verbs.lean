import Mathlib.Tactic.IntervalCases
import StaticConfig.Builtin.Format
import StaticConfig.Builtin.Numbers
import StaticConfig.Proofs.Builtin.Arguments
import StaticConfig.Proofs.RoundTrip.Phrases

/-!
Whole numbers in formatted texts. The digits that a verb writes are read back as the number that
they stand for, with zeros before them or with blanks around them. But a plus sign is no digit, and
the bits of a negative number are more than a word holds.
-/
namespace StaticConfig.Text

theorem digitValue_cases {c : Char} (h : digitValue c < 36) :
    c.isDigit = true ∨ c.isLower = true ∨ c.isUpper = true := by
  unfold digitValue at h
  split at h
  · next hdigit => exact .inl hdigit
  · split at h
    · next hlower => exact .inr (.inl hlower)
    · split at h
      · next hupper => exact .inr (.inr hupper)
      · exact absurd h (Nat.lt_irrefl 36)

theorem isBlank_of_digitValue {c : Char} (h : digitValue c < 36) : isBlank c = false := by
  have hrange : 33 ≤ c.toNat ∧ c.toNat < 128 := by
    rcases digitValue_cases h with h | h | h
    · simp only [Char.isDigit, Bool.and_eq_true, decide_eq_true_eq, UInt32.le_iff_toNat_le] at h
      exact ⟨Nat.le_trans (by decide) h.1, Nat.lt_of_le_of_lt h.2 (by decide)⟩
    · have hlower := Bool.and_eq_true_iff.1 h
      have hfirst := UInt32.le_iff_toNat_le.1 (of_decide_eq_true hlower.1)
      have hlast := UInt32.le_iff_toNat_le.1 (of_decide_eq_true hlower.2)
      exact ⟨Nat.le_trans (by decide) hfirst, Nat.lt_of_le_of_lt hlast (by decide)⟩
    · have hupper := of_decide_eq_true h
      have hfirst := UInt32.le_iff_toNat_le.1 hupper.1
      have hlast := UInt32.le_iff_toNat_le.1 hupper.2
      exact ⟨Nat.le_trans (by decide) hfirst, Nat.lt_of_le_of_lt hlast (by decide)⟩
  have hspace : c ≠ ' ' := by
    rintro rfl
    exact absurd hrange.1 (by decide)
  have hcontrol : ¬ c.toNat ≤ 13 := by omega
  simp [isBlank, isAscii, hrange.2, hspace, hcontrol]

variable {base acc m : Nat} {as bs cs : List Char}

theorem readNat_append (base acc : Nat) (as bs : List Char) :
    readNat base acc (as ++ bs) = (readNat base acc as).bind fun n => readNat base n bs := by
  induction as generalizing acc with
  | nil => rfl
  | cons a as ih =>
    rw [List.cons_append, readNat, readNat]
    split
    · exact ih _
    · rfl

theorem digitValue_of_readNat (h : readNat base acc cs = some m) :
    ∀ c ∈ cs, digitValue c < base := by
  induction cs generalizing acc with
  | nil => exact List.forall_mem_nil _
  | cons c cs ih =>
    rw [readNat] at h
    split at h
    · next hc => exact List.forall_mem_cons.2 ⟨hc, ih h⟩
    · cases h

theorem readNat_zeros (hbase : 0 < base) (k : Nat) (cs : List Char) :
    readNat base 0 (List.replicate k '0' ++ cs) = readNat base 0 cs := by
  induction k with
  | zero => rfl
  | succ k ih =>
    have hzero : digitValue '0' = 0 := by decide
    rw [List.replicate_succ, List.cons_append, readNat, hzero, if_pos hbase]
    exact ih

/-- Digits are read back, also if they are written in another case. -/
theorem readNat_toDigits (hbase : 1 < base) (f : Char → Char)
    (hf : ∀ d < base, digitValue (f (Nat.digitChar d)) = d) (m : Nat) :
    readNat base 0 ((Nat.toDigits base m).map f) = some m := by
  induction m using Nat.strongRecOn with
  | ind m ih =>
    have hlast (acc d : Nat) (hd : d < base) :
        readNat base acc [f (Nat.digitChar d)] = some (base * acc + d) := by
      rw [readNat, hf d hd, if_pos hd, readNat]
    rw [Nat.toDigits_eq_if hbase]
    split
    · next hm =>
      rw [List.map_singleton, hlast 0 m hm, Nat.mul_zero, Nat.zero_add]
    · next hm =>
      have hlt : m / base < m := Nat.div_lt_self (by omega) hbase
      rw [List.map_append, List.map_singleton, readNat_append, ih _ hlt, Option.bind_some,
        hlast _ _ (Nat.mod_lt _ (by omega)), Nat.div_add_mod]

/-- The characters are digits that stand for the number. -/
structure Spells (base m : Nat) (cs : List Char) : Prop where
  ne_nil : cs ≠ []
  read : readNat base 0 cs = some m

namespace Spells

theorem not_mem (h : Spells base m cs) {c : Char} (hc : base ≤ digitValue c) : c ∉ cs :=
  fun hmem => Nat.not_lt.2 hc (digitValue_of_readNat h.read c hmem)

theorem isBlank (h : Spells base m cs) (hbase : base ≤ 36) :
    ∀ c ∈ cs, Text.isBlank c = false := fun c hc =>
  isBlank_of_digitValue (Nat.lt_of_lt_of_le (digitValue_of_readNat h.read c hc) hbase)

theorem zeros (h : Spells base m cs) (hbase : 0 < base) (k : Nat) :
    Spells base m (List.replicate k '0' ++ cs) := by
  refine ⟨?_, ?_⟩
  · simp [h.ne_nil]
  · rw [readNat_zeros hbase, h.read]

theorem isEmpty_eq (h : Spells base m cs) : cs.isEmpty = false := by
  simpa using h.ne_nil

theorem readInt_minus (h : Spells base m cs) :
    readInt base (String.ofList ('-' :: cs)) = some (-(m : Int)) := by
  rw [readInt, String.toList_ofList]
  simp [h.isEmpty_eq, h.read]

theorem readInt_plus (h : Spells base m cs) :
    readInt base (String.ofList ('+' :: cs)) = some (m : Int) := by
  rw [readInt, String.toList_ofList]
  simp [h.isEmpty_eq, h.read]

/-- No sign is a digit. -/
theorem readInt_bare (h : Spells base m cs) (hbase : base ≤ 36) :
    readInt base (String.ofList cs) = some (m : Int) := by
  have hminus : '-' ∉ cs := h.not_mem hbase
  have hplus : '+' ∉ cs := h.not_mem hbase
  rw [readInt, String.toList_ofList]
  split
  · exact absurd List.mem_cons_self hminus
  · exact absurd List.mem_cons_self hplus
  · simp [h.isEmpty_eq, h.read]

end Spells

theorem readWord_eq_some_iff {s : String} {n : Int64} :
    readWord base s = some n ↔ readInt base s = some n.toInt := by
  rw [readWord]
  constructor
  · intro h
    split at h
    · next i hread =>
      split at h
      · next hfits =>
        cases h
        rw [hread, toInt_ofInt_of_fitsWord hfits]
      · cases h
    · cases h
  · intro h
    simp only [h, fitsWord_toInt n, if_true, Int64.ofInt_toInt]

/-- A sign behind zeros is not read. -/
theorem readInt_zeros_plus (hbase : base ≤ 36) {k : Nat} (hk : 0 < k) (cs : List Char) :
    readInt base (String.ofList (List.replicate k '0' ++ '+' :: cs)) = none := by
  obtain ⟨k, rfl⟩ := Nat.exists_eq_succ_of_ne_zero (Nat.ne_of_gt hk)
  have hread : readNat base 0 (List.replicate (k + 1) '0' ++ '+' :: cs) = none := by
    cases hr : readNat base 0 (List.replicate (k + 1) '0' ++ '+' :: cs) with
    | none => rfl
    | some n =>
      have hplus := digitValue_of_readNat hr '+' (by simp)
      exact absurd hplus (Nat.not_lt.2 hbase)
  rw [readInt, String.toList_ofList, List.replicate_succ, List.cons_append] at *
  simp [hread]

theorem trimBoth_blanks {p : Char → Bool} {b : Char} (hb : p b = true) (hcs : ∀ c ∈ cs, p c = false)
    (j k : Nat) : trimBoth p (List.replicate j b ++ cs ++ List.replicate k b) = cs := by
  have hdrop (ds : List Char) (hds : ∀ d ∈ ds, p d = false) (n k : Nat) :
      (List.replicate n b ++ ds ++ List.replicate k b).dropWhile p =
        if ds = [] then [] else ds ++ List.replicate k b := by
    induction n with
    | zero =>
      cases ds with
      | nil =>
        induction k with
        | zero => rfl
        | succ k ih => simp [hb]
      | cons d ds => simp [hds d List.mem_cons_self]
    | succ n ih => simpa [List.replicate_succ, hb] using ih
  rw [trimBoth, hdrop cs hcs]
  split
  · next hnil => simp [hnil]
  · next hne =>
    have hback := hdrop cs.reverse (fun c hc => hcs c (List.mem_reverse.1 hc)) k 0
    simp only [List.replicate_zero, List.append_nil, List.reverse_eq_nil_iff, hne,
      if_false] at hback
    rw [List.reverse_append, List.reverse_replicate, hback, List.reverse_reverse]

end StaticConfig.Text

namespace StaticConfig.Builtin.Format

open StaticConfig.Text (Spells digitValue readInt readWord)

/-- Flags that a verb for whole numbers may have. -/
def wholeFlags : List Char := ['0', '+', '-', ' ']

/-- The verbs that write whole numbers, with the base that each of them writes in. -/
def wholeVerbs : List (Char × Nat) := [('d', 10), ('b', 2), ('o', 8), ('x', 16), ('X', 16)]

/-- The format that consists of one verb. -/
def directive (flags : List Char) (width : Option Nat) (letter : Char) : String :=
  String.ofList ('%' :: flags ++ width.elim [] (Nat.toDigits 10) ++ [letter])

section Reading

variable {flags rest : List Char} {verb : Verb} {width : Option Nat} {letter : Char}

theorem readFlags_append (hflags : ∀ c ∈ flags, c ∈ wholeFlags) (verb : Verb)
    (rest : List Char) : readFlags verb (flags ++ rest) =
      readFlags { verb with
        leftAlign := verb.leftAlign || flags.contains '-'
        zeroPad := verb.zeroPad || flags.contains '0'
        plus := verb.plus || flags.contains '+' } rest := by
  induction flags generalizing verb with
  | nil => simp
  | cons c flags ih =>
    obtain ⟨hc, hrest⟩ := List.forall_mem_cons.1 hflags
    simp only [wholeFlags, List.mem_cons, List.not_mem_nil, or_false] at hc
    rw [List.cons_append, readFlags]
    rcases hc with rfl | rfl | rfl | rfl
    · rw [if_neg (by decide), if_pos rfl, ih hrest]
      simp
    · rw [if_neg (by decide), if_neg (by decide), if_pos rfl, ih hrest]
      simp
    · rw [if_pos rfl, ih hrest]
      simp
    · rw [if_neg (by decide), if_neg (by decide), if_neg (by decide), if_neg (by decide),
        if_pos rfl, ih hrest]
      simp

theorem readFlags_stop {c : Char} (hc : c ∉ '#' :: wholeFlags) (verb : Verb) (cs : List Char) :
    readFlags verb (c :: cs) = (verb, c :: cs) := by
  simp only [wholeFlags, List.mem_cons, List.not_mem_nil, or_false, not_or] at hc
  obtain ⟨hsharp, hzero, hplus, hminus, hblank⟩ := hc
  rw [readFlags, if_neg hminus, if_neg hzero, if_neg hplus, if_neg hsharp, if_neg hblank]

/-- The digits of a number within the limit are read as the number. -/
theorem readCount_digits {ds : List Char} (hds : ∀ d ∈ ds, d.isDigit = true) {c : Char}
    (hc : c.isDigit = false) (cs : List Char) {n : Option Nat}
    (hlimit : Nat.ofDigitChars 10 ds (n.getD 0) ≤ widthLimit) : readCount n (ds ++ c :: cs) =
      .ok (if ds = [] then n else some (Nat.ofDigitChars 10 ds (n.getD 0)), c :: cs) := by
  induction ds generalizing n with
  | nil => simp [readCount, hc]
  | cons d ds ih =>
    obtain ⟨hd, hds⟩ := List.forall_mem_cons.1 hds
    rw [Nat.ofDigitChars_cons] at hlimit
    have hnext : 10 * n.getD 0 + (d.toNat - '0'.toNat) ≤ widthLimit := by
      rw [Nat.ofDigitChars_eq_ofDigitChars_zero] at hlimit
      have hpow : 1 ≤ 10 ^ ds.length := Nat.one_le_pow _ _ (by decide)
      have hfirst := Nat.le_mul_of_pos_left (10 * n.getD 0 + (d.toNat - '0'.toNat)) hpow
      exact Nat.le_trans (Nat.le_trans hfirst (Nat.le_add_right _ _)) hlimit
    have hrest : readCount (some (10 * n.getD 0 + (d.toNat - '0'.toNat))) (ds ++ c :: cs) = _ :=
      ih hds hlimit
    rw [List.cons_append, readCount, if_pos hd]
    dsimp only
    rw [if_pos hnext, hrest, if_neg (List.cons_ne_nil _ _), Nat.ofDigitChars_cons]
    split
    · next hnil =>
      subst hnil
      rfl
    · rfl

/-- What a verb has of the flags and of the width before it. Without a width there is nothing to
fill. -/
structure Verb.Reads (verb : Verb) (flags : List Char) (places : Nat) (c : Char) : Prop where
  letter : verb.letter = c
  leftAlign : verb.leftAlign = flags.contains '-'
  plus : verb.plus = flags.contains '+'
  sharp : verb.sharp = false
  precision : verb.precision = none
  width : verb.width.getD 0 = places
  zeroPad : 0 < places → verb.zeroPad = flags.contains '0'

theorem head?_toDigits (m : Nat) : 0 < m → (Nat.toDigits 10 m).head? ≠ some '0' := by
  induction m using Nat.strongRecOn with
  | ind m ih =>
    intro hm
    rw [Nat.toDigits_eq_if (by decide)]
    split
    · next hlt =>
      interval_cases m <;> decide
    · next hle =>
      have hfront := ih (m / 10) (by omega) (by omega)
      have hne : Nat.toDigits 10 (m / 10) ≠ [] := Nat.toDigits_ne_nil
      obtain ⟨d, ds, hds⟩ := List.exists_cons_of_ne_nil hne
      rw [hds] at hfront ⊢
      exact hfront

/-- The flags are read up to the first character that is none. -/
theorem readVerb_flags (hflags : ∀ c ∈ flags, c ∈ wholeFlags) {c : Char} {cs : List Char}
    (hc : c ∉ '#' :: wholeFlags) {w : Option Nat} {letter : Char} (hletter : letter ≠ '.')
    (hcount : readCount none (c :: cs) = .ok (w, [letter])) :
    readVerb (flags ++ c :: cs) =
      .ok (⟨flags.contains '-', flags.contains '0', flags.contains '+', false, w, none, letter⟩,
        []) := by
  rw [readVerb, readFlags_append hflags, readFlags_stop hc]
  simp only [plainVerb, Bool.false_or]
  rw [hcount]
  simp only [bind, Except.bind]
  split
  · next heq =>
    cases heq
    exact absurd rfl hletter
  · rfl

/-- No flag is a digit other than zero. -/
theorem not_mem_flags_of_isDigit {d : Char} (hd : d.isDigit = true) (hzero : d ≠ '0') :
    d ∉ '#' :: wholeFlags := by
  intro hmem
  simp only [wholeFlags, List.mem_cons, List.not_mem_nil, or_false] at hmem
  rcases hmem with rfl | rfl | rfl | rfl | rfl
  · exact absurd hd (by decide)
  · exact hzero rfl
  · exact absurd hd (by decide)
  · exact absurd hd (by decide)
  · exact absurd hd (by decide)

/-- A width of zero is read as one more flag, which changes nothing. -/
theorem readVerb_directive (hflags : ∀ c ∈ flags, c ∈ wholeFlags) (width : Option Nat)
    (hwidth : width.getD 0 ≤ widthLimit) (hletter : letter ∈ wholeVerbs.map Prod.fst) :
    ∃ verb, readVerb (flags ++ width.elim [] (Nat.toDigits 10) ++ [letter]) = .ok (verb, []) ∧
      verb.Reads flags (width.getD 0) letter := by
  have hplain : letter ∉ '#' :: wholeFlags ∧ letter.isDigit = false ∧ letter ≠ '.' := by
    simp only [wholeVerbs, List.map_cons, List.map_nil, List.mem_cons, List.not_mem_nil,
      or_false] at hletter
    rcases hletter with rfl | rfl | rfl | rfl | rfl <;> decide
  obtain ⟨hflag, hdigit, hpoint⟩ := hplain
  have hnone : readCount none [letter] = .ok (none, [letter]) := by simp [readCount, hdigit]
  cases width with
  | none =>
    rw [Option.elim_none, List.append_nil]
    exact ⟨_, readVerb_flags hflags hflag hpoint hnone, rfl, rfl, rfl, rfl, rfl, rfl,
      fun h => absurd h (Nat.lt_irrefl 0)⟩
  | some w =>
    rw [Option.elim_some]
    by_cases hw : w = 0
    · subst hw
      have hzero : ∀ c ∈ flags ++ Nat.toDigits 10 0, c ∈ wholeFlags := by
        rw [Nat.toDigits_zero]
        exact List.forall_mem_append.2 ⟨hflags, List.forall_mem_singleton.2 (by decide)⟩
      refine ⟨_, readVerb_flags hzero hflag hpoint hnone, rfl, ?_, ?_, rfl, rfl, rfl,
        fun h => absurd h (Nat.lt_irrefl 0)⟩
      · simp [Nat.toDigits_zero]
      · simp [Nat.toDigits_zero]
    · have hdigits : ∀ d ∈ Nat.toDigits 10 w, d.isDigit = true := fun _ =>
        Text.isDigit_of_mem_decimal
      have hlimit : Nat.ofDigitChars 10 (Nat.toDigits 10 w) (none.getD 0) ≤ widthLimit := by
        rw [Option.getD_none, Nat.ofDigitChars_ten_toDigits]
        exact hwidth
      have hcount := readCount_digits hdigits hdigit [] hlimit
      rw [if_neg Nat.toDigits_ne_nil, Option.getD_none, Nat.ofDigitChars_ten_toDigits] at hcount
      have hhead := head?_toDigits w (Nat.pos_of_ne_zero hw)
      have hne : Nat.toDigits 10 w ≠ [] := Nat.toDigits_ne_nil
      obtain ⟨d, ds, hds⟩ := List.exists_cons_of_ne_nil hne
      rw [hds] at hhead hcount hdigits ⊢
      have hstop : d ∉ '#' :: wholeFlags :=
        not_mem_flags_of_isDigit (hdigits d List.mem_cons_self) fun h => hhead (congrArg some h)
      rw [List.append_assoc, List.cons_append]
      exact ⟨_, readVerb_flags hflags hstop hpoint hcount, rfl, rfl, rfl, rfl, rfl, rfl,
        fun _ => rfl⟩

end Reading

/-- The sign that a verb writes before the digits. -/
def signOf (verb : Verb) (n : Int64) : List Char :=
  if verb.letter = 'd' then
    if n.toInt < 0 then ['-'] else if verb.plus then ['+'] else []
  else []

/-- The number that the digits stand for: the size of the number, or its bits. -/
def sizeOf (letter : Char) (n : Int64) : Nat :=
  if letter = 'd' then n.toInt.natAbs else n.toUInt64.toNat

theorem digitValue_digitChar : ∀ d < 16, digitValue (Nat.digitChar d) = d := by
  decide

theorem digitValue_toUpper : ∀ d < 16, digitValue (Nat.digitChar d).toUpper = d := by
  decide

/-- The digits of a number in one of the bases. -/
theorem spells_toDigits {base : Nat} (hbase : 1 < base) (hle : base ≤ 16) (m : Nat) :
    Spells base m (Nat.toDigits base m) := by
  refine ⟨Nat.toDigits_ne_nil, ?_⟩
  have hread := Text.readNat_toDigits hbase id
    (fun d hd => digitValue_digitChar d (Nat.lt_of_lt_of_le hd hle)) m
  rwa [List.map_id] at hread

theorem spells_toUpper (m : Nat) : Spells 16 m ((Nat.toDigits 16 m).map Char.toUpper) := by
  refine ⟨?_, Text.readNat_toDigits (by decide) Char.toUpper digitValue_toUpper m⟩
  rw [ne_eq, List.map_eq_nil_iff]
  exact Nat.toDigits_ne_nil

theorem toList_decimal (verb : Verb) (hletter : verb.letter = 'd') (n : Int64) :
    (withPlus verb (decide (0 ≤ n)) (toString n.toInt)).toList =
      signOf verb n ++ Nat.toDigits 10 n.toInt.natAbs := by
  have hsign : 0 ≤ n ↔ 0 ≤ n.toInt := Int64.le_iff_toInt_le
  rw [signOf, if_pos hletter, withPlus, ← Number.text]
  by_cases hn : 0 ≤ n.toInt
  · rw [if_neg (Int.not_lt.2 hn), decide_eq_true (hsign.2 hn), Bool.and_true,
      Number.text_of_nonneg hn]
    split
    · rw [String.toList_append, String.toList_ofList, String.toList_ofList]
    · rw [String.toList_ofList]
      rfl
  · have hlt : n.toInt < 0 := Int.not_le.1 hn
    rw [if_pos hlt, decide_eq_false (mt hsign.1 hn), Bool.and_false, if_neg Bool.false_ne_true,
      Number.text_of_neg hlt, String.toList_ofList]
    rfl

theorem writeArgument_int {verb : Verb} {base : Nat} (hverb : (verb.letter, base) ∈ wholeVerbs)
    (n : Int64) : ∃ s digits, writeArgument verb (.number (.int n)) = .ok s ∧
      s.toList = signOf verb n ++ digits ∧ Spells base (sizeOf verb.letter n) digits := by
  have hbits (base : Nat) (hbase : 1 < base) (hle : base ≤ 16) (hletter : verb.letter ≠ 'd') :
      (Text.writeWord base n).toList = signOf verb n ++ Nat.toDigits base n.toUInt64.toNat ∧
        Spells base (sizeOf verb.letter n) (Nat.toDigits base n.toUInt64.toNat) := by
    rw [Text.writeWord, String.toList_ofList, signOf, if_neg hletter, sizeOf, if_neg hletter]
    exact ⟨rfl, spells_toDigits hbase hle _⟩
  simp only [wholeVerbs, List.mem_cons, Prod.mk.injEq, List.not_mem_nil, or_false] at hverb
  rcases hverb with ⟨hletter, rfl⟩ | ⟨hletter, rfl⟩ | ⟨hletter, rfl⟩ | ⟨hletter, rfl⟩ |
    ⟨hletter, rfl⟩
  · refine ⟨_, _, ?_, toList_decimal verb hletter n, ?_⟩
    · simp [writeArgument, hletter, asNumber_number, Number.toInt?, bind, Except.bind]
    · rw [sizeOf, if_pos hletter]
      exact spells_toDigits (by decide) (by decide) _
  · obtain ⟨htext, hdigits⟩ := hbits 2 (by decide) (by decide) (by rw [hletter]; decide)
    refine ⟨_, _, ?_, htext, hdigits⟩
    simp [writeArgument, hletter, asWhole_int, bind, Except.bind]
  · obtain ⟨htext, hdigits⟩ := hbits 8 (by decide) (by decide) (by rw [hletter]; decide)
    refine ⟨_, _, ?_, htext, hdigits⟩
    simp [writeArgument, hletter, asWhole_int, bind, Except.bind]
  · obtain ⟨htext, hdigits⟩ := hbits 16 (by decide) (by decide) (by rw [hletter]; decide)
    refine ⟨_, _, ?_, htext, hdigits⟩
    simp [writeArgument, hletter, asWhole_int, bind, Except.bind]
  · refine ⟨(Text.writeWord 16 n).toUpper, (Nat.toDigits 16 n.toUInt64.toNat).map Char.toUpper,
      ?_, ?_, ?_⟩
    · simp [writeArgument, hletter, asWhole_int, bind, Except.bind]
    · have hplain : verb.letter ≠ 'd' := by
        rw [hletter]
        decide
      rw [signOf, if_neg hplain, String.toUpper, String.toList_map, Text.writeWord,
        String.toList_ofList]
      rfl
    · rw [hletter]
      exact spells_toUpper _

section Padding

variable {verb : Verb} {base m : Nat} {cs sign digits : List Char}

/-- Zeros stand between a minus sign and the digits, and before anything else. -/
def zeroed (k : Nat) : List Char → List Char
  | '-' :: digits => '-' :: List.replicate k '0' ++ digits
  | cs => List.replicate k '0' ++ cs

theorem zeroed_zero (cs : List Char) : zeroed 0 cs = cs := by
  unfold zeroed
  split
  · rfl
  · rfl

theorem length_zeroed (k : Nat) (cs : List Char) : (zeroed k cs).length = k + cs.length := by
  unfold zeroed
  split
  · simp only [List.length_append, List.length_cons, List.length_replicate]
    omega
  · rw [List.length_append, List.length_replicate]

theorem mem_zeroed {k : Nat} {c : Char} (h : c ∈ zeroed k cs) : c = '0' ∨ c ∈ cs := by
  unfold zeroed at h
  split at h
  · simp only [List.cons_append, List.mem_cons, List.mem_append, List.mem_replicate] at h ⊢
    tauto
  · simp only [List.mem_append, List.mem_replicate] at h
    tauto

theorem pad_eq (verb : Verb) (cs : List Char) : pad verb cs =
    if verb.leftAlign then cs ++ List.replicate (verb.width.getD 0 - cs.length) ' '
    else if verb.zeroPad then zeroed (verb.width.getD 0 - cs.length) cs
    else List.replicate (verb.width.getD 0 - cs.length) ' ' ++ cs := by
  unfold pad
  split
  · rfl
  · split
    · rfl
    · rfl

theorem length_pad (verb : Verb) (cs : List Char) :
    (pad verb cs).length = max (verb.width.getD 0) cs.length := by
  rw [pad_eq]
  split
  · rw [List.length_append, List.length_replicate]
    omega
  · split
    · rw [length_zeroed]
      omega
    · rw [List.length_append, List.length_replicate]
      omega

theorem pad_of_no_width (h : verb.width.getD 0 = 0) (cs : List Char) : pad verb cs = cs := by
  rw [pad_eq, h, Nat.zero_sub, zeroed_zero]
  simp

/-- How many zeros are filled in. -/
def zerosOf (verb : Verb) (cs : List Char) : Nat :=
  if verb.zeroPad && !verb.leftAlign then verb.width.getD 0 - cs.length else 0

/-- The text without the blanks around it. -/
theorem trimBoth_pad (verb : Verb) (hcs : ∀ c ∈ cs, Text.isBlank c = false) :
    Text.trimBoth Text.isBlank (pad verb cs) = zeroed (zerosOf verb cs) cs := by
  have hblank : Text.isBlank ' ' = true := by decide
  have htrim := Text.trimBoth_blanks hblank hcs
  rw [pad_eq, zerosOf]
  split
  · next hleft =>
    rw [hleft, Bool.not_true, Bool.and_false, if_neg Bool.false_ne_true, zeroed_zero]
    exact htrim 0 _
  · next hleft =>
    rw [Bool.not_eq_true] at hleft
    rw [hleft, Bool.not_false, Bool.and_true]
    split
    · have hfilled : ∀ c ∈ zeroed (verb.width.getD 0 - cs.length) cs, Text.isBlank c = false := by
        intro c hc
        rcases mem_zeroed hc with rfl | hc
        · decide
        · exact hcs c hc
      simpa using Text.trimBoth_blanks hblank hfilled 0 0
    · rw [zeroed_zero]
      simpa using htrim _ 0

/-- Only a plus sign behind zeros is not read. -/
theorem readInt_zeroed (h : Spells base m digits) (hpos : 0 < base) (hbase : base ≤ 36)
    (hsign : sign ∈ [[], ['-'], ['+']]) (k : Nat) :
    readInt base (String.ofList (zeroed k (sign ++ digits))) =
      if sign = ['+'] ∧ 0 < k then none else some (if sign = ['-'] then -(m : Int) else m) := by
  have hzeros := h.zeros hpos k
  simp only [List.mem_cons, List.not_mem_nil, or_false] at hsign
  rcases hsign with rfl | rfl | rfl
  · rw [List.nil_append, zeroed]
    · simpa using hzeros.readInt_bare hbase
    · rintro ds rfl
      have hminus : '-' ∉ '-' :: ds := h.not_mem hbase
      exact hminus List.mem_cons_self
  · rw [List.singleton_append, zeroed]
    simpa using hzeros.readInt_minus
  · by_cases hk : 0 < k
    · simpa [zeroed, hk] using Text.readInt_zeros_plus hbase hk digits
    · obtain rfl : k = 0 := by omega
      rw [zeroed_zero]
      simpa using h.readInt_plus

end Padding

/-- A format that consists of one verb. -/
theorem format_verb {cs : List Char} {verb : Verb} {v : Value} {s : String}
    (hverb : readVerb cs = .ok (verb, [])) (hhead : cs.head? ≠ some '%') (hv : v.isNull = false)
    (hs : writeArgument verb v = .ok s) : format (.string (String.ofList ('%' :: cs))) [v] =
      .ok (.string (String.ofList (pad verb s.toList))) := by
  have hopen : ∀ ds, cs = '%' :: ds → False := by
    rintro ds rfl
    exact hhead rfl
  have hstep : formatFrom 1 (cs.length + 2) [] 0 [v] ('%' :: cs) = .ok (pad verb s.toList) := by
    rw [formatFrom]
    · simp only [hverb, hs, hv, bind, Except.bind]
      rfl
    · exact hopen
  rw [format, asString_string]
  simp only [bind, Except.bind, String.toList_ofList, List.length_cons, List.length_nil,
    Nat.zero_add, Nat.add_assoc, Nat.reduceAdd, hstep]

/-- What a verb writes does not depend on the width or on how it is filled. -/
theorem writeArgument_congr {verb verb' : Verb} (hletter : verb.letter = verb'.letter)
    (hplus : verb.plus = verb'.plus) (hsharp : verb.sharp = verb'.sharp)
    (hprecision : verb.precision = verb'.precision) (v : Value) :
    writeArgument verb v = writeArgument verb' v := by
  simp only [writeArgument, withPlus, hletter, hplus, hsharp, hprecision]

/-- The bits of a negative number stand for another number. -/
theorem signed_sizeOf_iff (verb : Verb) (n : Int64) :
    (if signOf verb n = ['-'] then -(sizeOf verb.letter n : Int) else sizeOf verb.letter n) =
      n.toInt ↔ verb.letter = 'd' ∨ 0 ≤ n.toInt := by
  unfold signOf sizeOf
  by_cases hletter : verb.letter = 'd'
  · simp only [hletter, if_true, true_or, iff_true]
    by_cases hn : n.toInt < 0
    · rw [if_pos hn, if_pos rfl]
      omega
    · have hsign : (if verb.plus then ['+'] else []) ≠ ['-'] := by
        split
        · decide
        · decide
      rw [if_neg hn, if_neg hsign]
      omega
  · have hbits : n.toInt = if 2 * n.toUInt64.toNat < 2 ^ 64 then (n.toUInt64.toNat : Int)
        else n.toUInt64.toNat - (2 ^ 64 : Nat) := BitVec.toInt_eq_toNat_cond n.toBitVec
    have hlt : n.toUInt64.toNat < 2 ^ 64 := n.toUInt64.toNat_lt
    simp only [hletter, if_false, false_or]
    rw [if_neg (by decide), hbits]
    split
    · simp
    · omega

theorem signOf_mem (verb : Verb) (n : Int64) : signOf verb n ∈ [[], ['-'], ['+']] := by
  unfold signOf
  split
  · split
    · decide
    · split
      · decide
      · decide
  · decide

theorem signOf_eq_plus_iff (verb : Verb) (n : Int64) :
    signOf verb n = ['+'] ↔ verb.letter = 'd' ∧ 0 ≤ n.toInt ∧ verb.plus = true := by
  unfold signOf
  split
  · split
    · simp_all
    · split
      · simp_all
      · simp_all
  · simp_all

theorem isBlank_of_sign {sign : List Char} (h : sign ∈ [[], ['-'], ['+']]) :
    ∀ c ∈ sign, Text.isBlank c = false := by
  simp only [List.mem_cons, List.not_mem_nil, or_false] at h
  rcases h with rfl | rfl | rfl
  · exact List.forall_mem_nil _
  · exact List.forall_mem_singleton.2 (by decide)
  · exact List.forall_mem_singleton.2 (by decide)

theorem zerosOf_pos_iff (verb : Verb) (cs : List Char) : 0 < zerosOf verb cs ↔
    verb.zeroPad = true ∧ verb.leftAlign = false ∧ cs.length < verb.width.getD 0 := by
  rw [zerosOf]
  split
  · simp_all
  · simp_all

theorem parseint_word {base : Nat} (hpos : 2 ≤ base) (hbase : base ≤ 36) (s : String) (n : Int64) :
    Numbers.parseint (.string s) (.number (.int (Int64.ofNat base))) = .ok (.number (.int n)) ↔
      readWord base s = some n := by
  have hword : (Int64.ofNat base).toInt.toNat = base ∧
      ¬(Int64.ofNat base < 2 ∨ 36 < Int64.ofNat base) := by
    interval_cases base <;> decide
  obtain ⟨htoNat, hrange⟩ := hword
  rw [Numbers.parseint, asString_string, asWhole_int]
  simp only [bind, Except.bind, htoNat, if_neg hrange]
  split
  · next m heq => simp [heq, Numbers.number]
  · next heq => simp [heq]

/-- A percent sign is only the first character of a format with one verb. -/
theorem not_mem_directive {flags : List Char} (hflags : ∀ c ∈ flags, c ∈ wholeFlags)
    (width : Option Nat) {letter : Char} (hletter : letter ∈ wholeVerbs.map Prod.fst) :
    '%' ∉ flags ++ width.elim [] (Nat.toDigits 10) ++ [letter] := by
  intro hmem
  rw [List.mem_append, List.mem_append, List.mem_singleton] at hmem
  rcases hmem with (hmem | hmem) | rfl
  · exact absurd (hflags _ hmem) (by decide)
  · cases width with
    | none => exact absurd hmem List.not_mem_nil
    | some w =>
      exact absurd (Text.isDigit_of_mem_decimal hmem) (by decide)
  · exact absurd hletter (by decide)

/-- The number is read back unless a plus sign stands behind zeros or the bits of a negative number
are written. -/
theorem readInt_filled_iff {flags digits : List Char} {verb : Verb} {places base : Nat}
    (h : verb.Reads flags places verb.letter) {n : Int64}
    (hdigits : Spells base (sizeOf verb.letter n) digits) (hpos : 0 < base) (hbase : base ≤ 36) :
    readInt base (String.ofList (zeroed (zerosOf verb (signOf verb n ++ digits))
        (signOf verb n ++ digits))) = some n.toInt ↔
      (verb.letter = 'd' ∨ 0 ≤ n.toInt) ∧
        ¬((verb.letter = 'd' ∧ 0 ≤ n.toInt ∧ '+' ∈ flags) ∧
          '0' ∈ flags ∧ '-' ∉ flags ∧ (signOf verb n ++ digits).length < places) := by
  have hplus : verb.plus = true ↔ '+' ∈ flags := by rw [h.plus, List.contains_iff_mem]
  have hleft : verb.leftAlign = false ↔ '-' ∉ flags := by
    rw [h.leftAlign, ← Bool.not_eq_true, List.contains_iff_mem]
  have hzeros : 0 < zerosOf verb (signOf verb n ++ digits) ↔
      '0' ∈ flags ∧ '-' ∉ flags ∧ (signOf verb n ++ digits).length < places := by
    rw [zerosOf_pos_iff, h.width, hleft]
    constructor
    · rintro ⟨hzero, hrest, hlt⟩
      rw [h.zeroPad (by omega), List.contains_iff_mem] at hzero
      exact ⟨hzero, hrest, hlt⟩
    · rintro ⟨hzero, hrest, hlt⟩
      refine ⟨?_, hrest, hlt⟩
      rw [h.zeroPad (by omega), List.contains_iff_mem]
      exact hzero
  rw [← hplus, ← signOf_eq_plus_iff, ← hzeros, ← signed_sizeOf_iff verb n,
    readInt_zeroed hdigits hpos hbase (signOf_mem verb n)]
  split
  · next hhidden => exact iff_of_false (by simp) fun hread => hread.2 hhidden
  · next hshown =>
    rw [Option.some.injEq]
    exact (and_iff_left hshown).symm

/-- A verb fills the text of a whole number up to the width. The number is read back from it unless
zeros stand before a plus sign or the bits of a negative number are written. -/
theorem parseint_format_iff {flags : List Char} {width : Option Nat} {letter : Char} {base : Nat}
    (hflags : ∀ c ∈ flags, c ∈ wholeFlags) (hwidth : width.getD 0 ≤ widthLimit)
    (hverb : (letter, base) ∈ wholeVerbs) (n : Int64) :
    ∃ bare text : String,
      format (.string (directive flags none letter)) [.number (.int n)] = .ok (.string bare) ∧
      format (.string (directive flags width letter)) [.number (.int n)] = .ok (.string text) ∧
      text.length = max (width.getD 0) bare.length ∧
      (Numbers.parseint (.string (Text.trim text)) (.number (.int (Int64.ofNat base))) =
          .ok (.number (.int n)) ↔
        (letter = 'd' ∨ 0 ≤ n.toInt) ∧
          ¬((letter = 'd' ∧ 0 ≤ n.toInt ∧ '+' ∈ flags) ∧
            '0' ∈ flags ∧ '-' ∉ flags ∧ bare.length < width.getD 0)) := by
  have hletter : letter ∈ wholeVerbs.map Prod.fst := List.mem_map_of_mem hverb
  have hbase : 2 ≤ base ∧ base ≤ 36 := by
    simp only [wholeVerbs, List.mem_cons, Prod.mk.injEq, List.not_mem_nil, or_false] at hverb
    omega
  obtain ⟨bareVerb, hbareRead, hbare⟩ := readVerb_directive hflags none (Nat.zero_le _) hletter
  obtain ⟨verb, hread, hverbReads⟩ := readVerb_directive hflags width hwidth hletter
  have hsame (v : Value) : writeArgument bareVerb v = writeArgument verb v :=
    writeArgument_congr (hbare.letter.trans hverbReads.letter.symm)
      (hbare.plus.trans hverbReads.plus.symm) (hbare.sharp.trans hverbReads.sharp.symm)
      (hbare.precision.trans hverbReads.precision.symm) v
  have hown : (verb.letter, base) ∈ wholeVerbs := by rwa [hverbReads.letter]
  obtain ⟨s, digits, hwrite, htext, hdigits⟩ := writeArgument_int hown n
  have hhead (w : Option Nat) :
      (flags ++ w.elim [] (Nat.toDigits 10) ++ [letter]).head? ≠ some '%' := fun hfirst =>
    not_mem_directive hflags w hletter (List.mem_of_head? hfirst)
  refine ⟨s, String.ofList (pad verb s.toList), ?_, ?_, ?_, ?_⟩
  · rw [directive, List.cons_append, List.cons_append,
      format_verb hbareRead (hhead none) rfl ((hsame _).trans hwrite),
      pad_of_no_width hbare.width, String.ofList_toList]
  · exact format_verb hread (hhead width) rfl hwrite
  · rw [String.length_ofList, length_pad, hverbReads.width, String.length_toList]
  · have hblank : ∀ c ∈ s.toList, Text.isBlank c = false := by
      rw [htext]
      exact List.forall_mem_append.2 ⟨isBlank_of_sign (signOf_mem verb n), hdigits.isBlank hbase.2⟩
    obtain rfl := hverbReads.letter
    rw [parseint_word hbase.1 hbase.2, Text.readWord_eq_some_iff, Text.trim, String.toList_ofList,
      trimBoth_pad verb hblank, ← String.length_toList, htext]
    exact readInt_filled_iff hverbReads hdigits (by omega) hbase.2

/-- The least number that a word holds is read back behind its sign and the zeros. -/
theorem parseint_format_least : ∃ text : String,
    format (.string (directive ['+', '0'] (some 32) 'd')) [.number (.int Int64.minValue)] =
      .ok (.string text) ∧
    text.length = 32 ∧
    Numbers.parseint (.string (Text.trim text)) (.number (.int (Int64.ofNat 10))) =
      .ok (.number (.int Int64.minValue)) := by
  have hflags : ∀ c ∈ ['+', '0'], c ∈ wholeFlags :=
    List.forall_mem_cons.2 ⟨by decide, List.forall_mem_singleton.2 (by decide)⟩
  have hwidth : (some 32).getD 0 ≤ widthLimit := by decide
  have hverb : ('d', 10) ∈ wholeVerbs := by decide
  obtain ⟨bare, text, hbare, htext, hlength, hread⟩ :=
    parseint_format_iff hflags hwidth hverb Int64.minValue
  have hunpadded : format (.string (directive ['+', '0'] none 'd'))
      [.number (.int Int64.minValue)] = .ok (.string "-9223372036854775808") := by rfl
  cases hbare.symm.trans hunpadded
  exact ⟨text, htext, hlength, hread.2 ⟨.inl rfl, fun hsign => absurd hsign.1.2.1 (by decide)⟩⟩

/-- A number that is not read back from its text, and one that is not read back from its bits. -/
theorem parseint_format_lost :
    format (.string "%+05d") [.number (.int 42)] = .ok (.string "00+42") ∧
    Numbers.parseint (.string (Text.trim "00+42")) (.number (.int 10)) =
      .error (.badDigits "00+42" 10) ∧
    format (.string "%x") [.number (.int (-1))] = .ok (.string "ffffffffffffffff") ∧
    Numbers.parseint (.string (Text.trim "ffffffffffffffff")) (.number (.int 16)) =
      .error (.badDigits "ffffffffffffffff" 16) := by
  refine ⟨?_, ?_, ?_, ?_⟩ <;> rfl

end StaticConfig.Builtin.Format
