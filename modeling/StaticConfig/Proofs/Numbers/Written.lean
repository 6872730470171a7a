import StaticConfig.Proofs.Builtin.Verbs
import StaticConfig.Proofs.Evaluation.Forms
import StaticConfig.Proofs.RoundTrip.Files

/-!
Whole numbers of 64 bits written in decimal. A text that is a number is read as the number written.
In a source the digits are read apart from the sign, which is folded in afterwards, so the least
number comes out as a double: its digits alone are no number of 64 bits.
-/
namespace StaticConfig

namespace Number

open Text (Spells)

variable (n : Int64)

/-- A written word has no blanks around it and is read as the same word. -/
theorem read_text : read (text (int n)) = .ok (int n) := by
  have hdigits : Spells 10 n.toInt.natAbs (Nat.toDigits 10 n.toInt.natAbs) :=
    Builtin.Format.spells_toDigits (by decide) (by decide) _
  have hblank := hdigits.isBlank (by decide)
  have hread {cs : List Char} (hcs : ∀ c ∈ cs, Text.isBlank c = false)
      (hint : Text.readInt 10 (String.ofList cs) = some n.toInt) :
      read (String.ofList cs) = .ok (int n) := by
    have htrim : Text.trim (String.ofList cs) = String.ofList cs := by
      rw [Text.trim, String.toList_ofList, Text.trimBoth_eq_self hcs]
    simp only [read, htrim, Text.readWord_eq_some_iff.2 hint]
  rcases Int.lt_or_le n.toInt 0 with hneg | hpos
  · have hsize : -(n.toInt.natAbs : Int) = n.toInt := by omega
    rw [text_of_neg hneg]
    refine hread (List.forall_mem_cons.2 ⟨by decide, hblank⟩) ?_
    rw [hdigits.readInt_minus, hsize]
  · have hsize : (n.toInt.natAbs : Int) = n.toInt := by omega
    rw [text_of_nonneg hpos]
    refine hread hblank ?_
    rw [hdigits.readInt_bare (by decide), hsize]

/-- The digits of the least word are no word, so they are read as a double. -/
theorem read_least_digits :
    read (String.ofList (Nat.toDigits 10 0x8000000000000000)) =
      .ok (float (Double.ofInt (2 ^ 63))) := by
  have htrim : Text.trim (String.ofList (Nat.toDigits 10 0x8000000000000000)) =
      "9223372036854775808" := by decide +kernel
  have hword : Text.readWord 10 "9223372036854775808" = none := by decide +kernel
  have hdouble : Double.read? "9223372036854775808" = some (Double.ofInt (2 ^ 63)) := by
    decide +kernel
  have hfinite : Double.isFinite (Double.ofInt (2 ^ 63)) = true := by decide +kernel
  have hwhole : whole? (Double.ofInt (2 ^ 63)) = none := by decide +kernel
  simp only [read, htrim, hword, hdouble, hfinite, if_true, ofFloat, hwhole]

theorem neg_least_size :
    neg (float (Double.ofInt (2 ^ 63))) = float (Double.ofInt Int64.minValue.toInt) :=
  congrArg float (by decide +kernel)

end Number

namespace Parser

/-- The least word is read as a double. -/
theorem Phrase.least : Phrase (Number.text (.int Int64.minValue)).toList fun e =>
    ∃ span, e = .literal span (.number (.float (Double.ofInt Int64.minValue.toInt))) := by
  rw [Number.text_of_neg (by decide), String.toList_ofList, ← Number.neg_least_size]
  exact Phrase.negative Nat.toDigits_ne_nil (fun _ => Text.isDigit_of_mem_decimal)
    Number.read_least_digits

/-- A word written in a source is a literal that evaluates to the word, unless it is the least one,
which becomes a double. As a text that is converted to a number each word is kept. -/
theorem whole_literal (file : String) (n : Int64) : ∃ span x,
    expression ⟨file, toString n.toInt⟩ = .ok (.literal span (.number x)) ∧
      (∀ s env, Eval.eval s env (.literal span (.number x)) = ⟨.number x, []⟩) ∧
      (x = .int n ↔ n ≠ Int64.minValue) ∧
      (n = Int64.minValue → x = .float (Double.ofInt n.toInt)) ∧
      Number.read (toString n.toInt) = .ok (.int n) := by
  by_cases hleast : n = Int64.minValue
  · subst hleast
    obtain ⟨_, hparse, span, rfl⟩ := expression_of_phrase Phrase.least file
    exact ⟨span, _, hparse, fun _ _ => Eval.eval_literal_eq_clean.2 rfl,
      ⟨nofun, fun h => absurd rfl h⟩, fun _ => rfl, Number.read_text _⟩
  · obtain ⟨_, hparse, span, rfl⟩ := expression_of_phrase (Phrase.whole hleast) file
    exact ⟨span, _, hparse, fun _ _ => Eval.eval_literal_eq_clean.2 rfl,
      ⟨fun _ => hleast, fun _ => rfl⟩, fun h => absurd h hleast, Number.read_text _⟩

/-- The least word, written in a source, does not evaluate to itself. -/
theorem least_literal : ∃ e, expression ⟨"main.tf", "-9223372036854775808"⟩ = .ok e ∧
    ∀ s env, Eval.eval s env e = ⟨.number (.float (Double.ofInt Int64.minValue.toInt)), []⟩ := by
  have htext : Number.text (.int Int64.minValue) = "-9223372036854775808" := by decide
  obtain ⟨_, hparse, span, rfl⟩ := expression_of_phrase Phrase.least "main.tf"
  rw [htext] at hparse
  exact ⟨_, hparse, fun _ _ => Eval.eval_literal_eq_clean.2 rfl⟩

end Parser

end StaticConfig
