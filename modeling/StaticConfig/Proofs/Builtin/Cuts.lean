import StaticConfig.Builtin.Texts
import StaticConfig.Proofs.Builtin.Arguments
import StaticConfig.Proofs.RoundTrip.Phrases

/-!
Parts cut out of texts and of sequences. Places are words of 64 bits, and no text or sequence in
memory has more items than a word counts. So no sum of places overflows, no range reaches beyond
what it is taken of, and the parts on both sides of a place are the whole.
-/
namespace StaticConfig.Builtin

variable {α : Type} {xs : List α} {cs : List Char}

section Words

variable {a b start stop : Int64}

/-- The sum of two words, if it is a word. -/
def checkedAdd (a b : Int64) : Option Int64 :=
  if Text.fitsWord (a.toInt + b.toInt) then some (a + b) else none

/-- The sum of two words, or the last word on its side. -/
def saturatingAdd (a b : Int64) : Int64 :=
  (checkedAdd a b).getD (if 0 ≤ b then Int64.maxValue else Int64.minValue)

/-- The items from one place up to another, if both lie in the list, and in this order. -/
def range? (xs : List α) (start stop : Int64) : Option (List α) :=
  if 0 ≤ start ∧ start ≤ stop ∧ stop.toInt ≤ xs.length then
    some ((xs.take stop.toInt.toNat).drop start.toInt.toNat)
  else none

theorem checkedAdd_eq_some (h : Text.fitsWord (a.toInt + b.toInt)) :
    checkedAdd a b = some (a + b) ∧ (a + b).toInt = a.toInt + b.toInt := by
  obtain ⟨hlow, hhigh⟩ := Text.fitsWord_iff.1 h
  refine ⟨if_pos h, ?_⟩
  rw [Int64.toInt_add]
  exact Int.bmod_eq_of_le (by omega) (by omega)

theorem toInt_max : (max a b).toInt = max a.toInt b.toInt := by
  rw [Int.max_def]
  simp only [← Int64.le_iff_toInt_le]
  exact apply_ite Int64.toInt _ _ _

theorem toInt_min : (min a b).toInt = min a.toInt b.toInt := by
  rw [Int.min_def]
  simp only [← Int64.le_iff_toInt_le]
  exact apply_ite Int64.toInt _ _ _

/-- Cut off at a word, a saturated sum is the sum. -/
theorem min_saturatingAdd (hb : 0 ≤ b) (c : Int64) :
    (min (saturatingAdd a b) c).toInt = min (a.toInt + b.toInt) c.toInt := by
  have hlow := a.le_toInt
  have hhigh := c.toInt_lt
  have hgreatest : Int64.maxValue.toInt = 0x7fffffffffffffff := rfl
  have hpos : 0 ≤ b.toInt := Int64.le_iff_toInt_le.1 hb
  rw [toInt_min, saturatingAdd]
  by_cases hfits : Text.fitsWord (a.toInt + b.toInt)
  · obtain ⟨hsum, htoInt⟩ := checkedAdd_eq_some hfits
    rw [hsum, Option.getD_some, htoInt]
  · have hnone : checkedAdd a b = none := if_neg hfits
    rw [Text.fitsWord_iff] at hfits
    rw [hnone, Option.getD_none, if_pos hb, hgreatest]
    omega

theorem range?_eq_some (hstart : 0 ≤ start.toInt) (hle : start.toInt ≤ stop.toInt)
    (hstop : stop.toInt ≤ xs.length) :
    range? xs start stop = some ((xs.take stop.toInt.toNat).drop start.toInt.toNat) :=
  if_pos ⟨Int64.le_iff_toInt_le.2 hstart, Int64.le_iff_toInt_le.2 hle, hstop⟩

end Words

namespace Texts

section Cut

/-- Where a cut starts: a negative offset counts from the end. -/
def startOf (size offset : Int) : Int :=
  if offset < 0 then max (size + offset) 0 else offset

theorem startOf_of_nonneg (size : Int) {offset : Int} (h : 0 ≤ offset) :
    startOf size offset = offset := if_neg (Int.not_lt.2 h)

theorem startOf_nonneg (size offset : Int) : 0 ≤ startOf size offset := by
  rw [startOf]
  split
  · exact Int.le_max_right _ _
  · omega

theorem cut_eq (cs : List Char) (offset length : Int) :
    cut cs offset length =
      let start := startOf cs.length offset
      if cs.length ≤ start then .ok []
      else if length = -1 then .ok (cs.drop start.toNat)
      else if length < -1 then .error .badLength
      else .ok ((cs.drop start.toNat).take length.toNat) := rfl

theorem cut_front {k : Int} (h : 0 ≤ k) : cut cs 0 k = .ok (cs.take k.toNat) := by
  rw [cut_eq, startOf_of_nonneg _ (Int.le_refl 0)]
  dsimp only
  split
  · next hempty =>
    have hnil : cs = [] := List.eq_nil_of_length_eq_zero (by omega)
    rw [hnil, List.take_nil]
  · rw [if_neg (by omega), if_neg (by omega)]
    rfl

theorem cut_to_end (offset : Int) :
    cut cs offset (-1) = .ok (cs.drop (startOf cs.length offset).toNat) := by
  rw [cut_eq]
  dsimp only
  split
  · next hbeyond => rw [List.drop_eq_nil_of_le (by omega)]
  · rfl

theorem cut_back {k : Int} (h : 0 ≤ k) : cut cs k (-1) = .ok (cs.drop k.toNat) := by
  rw [cut_to_end, startOf_of_nonneg _ h]

theorem cut_last {j : Int} (h : 0 < j) :
    cut cs (-j) (-1) = .ok (cs.drop (cs.length - j.toNat)) := by
  have hstart : (max ((cs.length : Int) + -j) 0).toNat = cs.length - j.toNat := by omega
  rw [cut_to_end, startOf, if_pos (Int.neg_neg_of_pos h), hstart]

theorem cut_error {offset length : Int} {e : CallError} (h : cut cs offset length = .error e) :
    e = .badLength ∧ length < -1 := by
  rw [cut_eq] at h
  dsimp only at h
  split at h
  · cases h
  · split at h
    · cases h
    · split at h
      · next hlength =>
        cases h
        exact ⟨rfl, hlength⟩
      · cases h

end Cut

section InWords

/-- Where a cut starts, with words for all places, if no sum is larger than a word. -/
def startInWords? (size offset : Int64) : Option Int64 :=
  if offset < 0 then (checkedAdd size offset).map (max · 0) else some offset

/-- `cut` with words for all places. It has no result where a sum is no word or a range is not one
of the characters. -/
def cutInWords? (cs : List Char) (offset length : Int64) :
    Option (Except CallError (List Char)) := do
  let size := Int64.ofNat cs.length
  let start ← startInWords? size offset
  if size ≤ start then some (.ok [])
  else if length = -1 then (range? cs start size).map .ok
  else if length < -1 then some (.error .badLength)
  else (range? cs start (min (saturatingAdd start length) size)).map .ok

theorem startInWords?_eq_some {size : Int64} (hsize : 0 ≤ size.toInt) (offset : Int64) :
    ∃ start, startInWords? size offset = some start ∧
      start.toInt = startOf size.toInt offset.toInt := by
  have hlow := offset.le_toInt
  have hhigh := size.toInt_lt
  rw [startInWords?, startOf]
  simp only [Int64.lt_iff_toInt_lt, Int64.toInt_zero]
  split
  · next hneg =>
    obtain ⟨hsum, htoInt⟩ :=
      checkedAdd_eq_some (a := size) (b := offset) (Text.fitsWord_iff.2 ⟨by omega, by omega⟩)
    refine ⟨max (size + offset) 0, by rw [hsum, Option.map_some], ?_⟩
    rw [toInt_max, htoInt, Int64.toInt_zero]
  · exact ⟨offset, rfl, rfl⟩

/-- No sum is larger than a word, and no range reaches beyond the characters. -/
theorem cutInWords?_eq (hcs : cs.length < 0x8000000000000000) (offset length : Int64) :
    cutInWords? cs offset length = some (cut cs offset.toInt length.toInt) := by
  have hsize : (Int64.ofNat cs.length).toInt = cs.length := Int64.toInt_ofNat_of_lt (by omega)
  have hsizePos : 0 ≤ (Int64.ofNat cs.length).toInt := by omega
  obtain ⟨start, hsome, hstart⟩ := startInWords?_eq_some hsizePos offset
  have hnonneg := startOf_nonneg cs.length offset.toInt
  have hminus : length = -1 ↔ length.toInt = -1 := Int64.toInt_inj.symm
  have hless : length < -1 ↔ length.toInt < -1 := Int64.lt_iff_toInt_lt
  rw [hsize] at hstart
  rw [cut_eq, ← hstart]
  rw [← hstart] at hnonneg
  simp only [cutInWords?, hsome, Option.bind_eq_bind, Option.bind_some, Int64.le_iff_toInt_le,
    hsize, hminus, hless]
  split
  · rfl
  · next hbefore =>
    split
    · rw [range?_eq_some hnonneg (by omega) (by omega), hsize, Int.toNat_natCast, List.take_length,
        Option.map_some]
    · split
      · rfl
      · next hlength hlow =>
        have hcount : 0 ≤ length.toInt := by omega
        have hstop := min_saturatingAdd (a := start) (Int64.le_iff_toInt_le.2 hcount)
          (Int64.ofNat cs.length)
        rw [hsize] at hstop
        have hplace : (min (start.toInt + length.toInt) cs.length).toNat =
            min (start.toInt.toNat + length.toInt.toNat) cs.length := by omega
        rw [range?_eq_some hnonneg (by omega) (by omega), hstop, hplace, ← List.take_eq_take_min,
          ← List.take_drop, Option.map_some]

end InWords

section Substr

variable {s : String} {offset length : Int64}

theorem substr_eq (s : String) (offset length : Int64) :
    substr (.string s) (.number (.int offset)) (.number (.int length)) =
      (cut s.toList offset.toInt length.toInt).map fun part => .string (String.ofList part) := by
  rw [substr, asString_string, asWhole_int, asWhole_int]
  cases hcut : cut s.toList offset.toInt length.toInt with
  | error e =>
    simp only [bind, Except.bind, hcut]
    rfl
  | ok part =>
    simp only [bind, Except.bind, hcut]
    rfl

theorem substr_of_cut {part : List Char}
    (h : cut s.toList offset.toInt length.toInt = .ok part) :
    substr (.string s) (.number (.int offset)) (.number (.int length)) =
      .ok (.string (String.ofList part)) := by
  rw [substr_eq, h]
  rfl

theorem substr_error {e : CallError}
    (h : substr (.string s) (.number (.int offset)) (.number (.int length)) = .error e) :
    e = .badLength ∧ length < -1 := by
  rw [substr_eq] at h
  cases hcut : cut s.toList offset.toInt length.toInt with
  | error e' =>
    rw [hcut] at h
    cases h
    obtain ⟨he, hlength⟩ := cut_error hcut
    exact ⟨he, Int64.lt_iff_toInt_lt.2 hlength⟩
  | ok part =>
    rw [hcut] at h
    cases h

/-- Texts are cut with words for all places. -/
theorem substr_inWords (hs : s.length < 0x8000000000000000) (offset length : Int64) : ∃ r,
    cutInWords? s.toList offset length = some r ∧
      substr (.string s) (.number (.int offset)) (.number (.int length)) =
        r.map fun part => .string (String.ofList part) :=
  ⟨_, cutInWords?_eq (by rwa [String.length_toList]) offset length, substr_eq s offset length⟩

/-- A text is made of its first characters, as many as any number says, and the others. -/
theorem substr_append (s : String) {k : Int64} (h : 0 ≤ k) : ∃ front back,
    substr (.string s) (.number (.int 0)) (.number (.int k)) = .ok (.string front) ∧
      substr (.string s) (.number (.int k)) (.number (.int (-1))) = .ok (.string back) ∧
      front ++ back = s := by
  have hk : 0 ≤ k.toInt := Int64.le_iff_toInt_le.1 h
  refine ⟨_, _, substr_of_cut (cut_front hk), substr_of_cut (cut_back hk), ?_⟩
  rw [← String.ofList_append, List.take_append_drop, String.ofList_toList]

/-- A negative offset leaves as many of the last characters as it says, or all. -/
theorem substr_last (s : String) {j : Int64} (h : 0 < j) : ∃ back,
    substr (.string s) (.number (.int (-j))) (.number (.int (-1))) = .ok (.string back) ∧
      back.toList <:+ s.toList ∧ back.length = min j.toInt.toNat s.length := by
  have hj : 0 < j.toInt := Int64.lt_iff_toInt_lt.1 h
  have hlt := j.toInt_lt
  have hneg : (-j).toInt = -j.toInt := by
    rw [Int64.toInt_neg]
    exact Int.bmod_eq_of_le (by omega) (by omega)
  refine ⟨_, substr_of_cut (by rw [hneg]; exact cut_last hj), ?_, ?_⟩
  · rw [String.toList_ofList]
    exact List.drop_suffix _ _
  · rw [String.length_ofList, List.length_drop, String.length_toList]
    omega

end Substr

end Texts

namespace Collections

variable {v : Value} {items : List Value} {start stop : Int64}

theorem asSequence_of_items? (h : v.items? = some items) : asSequence v = .ok items := by
  cases v <;> cases h <;> rfl

theorem items?_like (v : Value) (items : List Value) : (like v items).items? = some items := by
  cases v <;> rfl

/-- A slice has the items of the range, where there is one. -/
theorem slice_eq_ok_iff (h : v.items? = some items) {w : Value} :
    slice v (.number (.int start)) (.number (.int stop)) = .ok w ↔
      ∃ part, range? items start stop = some part ∧ like v part = w := by
  rw [slice, asSequence_of_items? h, asWhole_int, asWhole_int]
  simp only [bind, Except.bind, range?, Int64.lt_iff_toInt_lt, Int64.le_iff_toInt_le,
    Int64.toInt_zero]
  by_cases hrange : 0 ≤ start.toInt ∧ start.toInt ≤ stop.toInt ∧ stop.toInt ≤ items.length
  · rw [if_neg (by omega), if_neg (by omega), if_neg (by omega), if_pos hrange]
    simp
  · rw [if_neg hrange]
    constructor
    · intro hslice
      split at hslice
      · cases hslice
      · split at hslice
        · cases hslice
        · split at hslice
          · cases hslice
          · exact absurd ⟨by omega, by omega, by omega⟩ hrange
    · rintro ⟨_, hnone, -⟩
      cases hnone

theorem slice_isOk_iff (h : v.items? = some items) :
    (∃ w, slice v (.number (.int start)) (.number (.int stop)) = .ok w) ↔
      0 ≤ start ∧ start ≤ stop ∧ stop.toInt ≤ items.length := by
  simp only [slice_eq_ok_iff h, range?]
  split
  · next hrange => simp [hrange]
  · next hrange => simp [hrange]

/-- Slicing from one place to another gives a sequence of these items. -/
def Slices (v : Value) (start stop : Int64) (part : List Value) : Prop :=
  ∃ w, slice v (.number (.int start)) (.number (.int stop)) = .ok w ∧ w.items? = some part

theorem slices_of_range? (h : v.items? = some items) {part : List Value}
    (hpart : range? items start stop = some part) : Slices v start stop part :=
  ⟨_, (slice_eq_ok_iff h).2 ⟨part, hpart, rfl⟩, items?_like v part⟩

/-- The slices before, between and behind two places are the whole sequence. -/
theorem slices_append (h : v.items? = some items) (hsize : items.length < 0x8000000000000000)
    (hstart : 0 ≤ start) (hle : start ≤ stop) (hstop : stop.toInt ≤ items.length) :
    ∃ front middle back, Slices v 0 start front ∧ Slices v start stop middle ∧
      Slices v stop (Int64.ofNat items.length) back ∧ front ++ middle ++ back = items := by
  have hlast : (Int64.ofNat items.length).toInt = items.length :=
    Int64.toInt_ofNat_of_lt (by omega)
  have hzero : (0 : Int64).toInt = 0 := Int64.toInt_zero
  rw [Int64.le_iff_toInt_le] at hstart hle
  have hfront : range? items 0 start = some (items.take start.toInt.toNat) :=
    range?_eq_some (by omega) (by omega) (by omega)
  have hmiddle : range? items start stop =
      some ((items.take stop.toInt.toNat).drop start.toInt.toNat) :=
    range?_eq_some hstart hle hstop
  have hback : range? items stop (Int64.ofNat items.length) =
      some (items.drop stop.toInt.toNat) := by
    rw [range?_eq_some (by omega) (by omega) (by omega), hlast, Int.toNat_natCast,
      List.take_length]
  refine ⟨_, _, _, slices_of_range? h hfront, slices_of_range? h hmiddle,
    slices_of_range? h hback, ?_⟩
  have hfirst : items.take start.toInt.toNat =
      (items.take stop.toInt.toNat).take start.toInt.toNat := by
    rw [List.take_take, Nat.min_eq_left (by omega)]
  rw [hfirst, List.take_append_drop, List.take_append_drop]

end Collections

open Texts Collections

/-- Texts and sequences are cut at any words. All places are words and lie in what is cut, a text is
refused only for a length that is none, and what is cut at a place is the whole again. -/
theorem cuts_lossless {s : String} (hs : s.length < 0x8000000000000000) {v : Value}
    {items : List Value} (hv : v.items? = some items)
    (hitems : items.length < 0x8000000000000000) :
    (∀ offset length : Int64, ∃ r, cutInWords? s.toList offset length = some r ∧
      substr (.string s) (.number (.int offset)) (.number (.int length)) =
        r.map fun part => .string (String.ofList part)) ∧
    (∀ (offset length : Int64) e,
      substr (.string s) (.number (.int offset)) (.number (.int length)) = .error e →
        e = .badLength ∧ length < -1) ∧
    (∀ k : Int64, 0 ≤ k → ∃ front back,
      substr (.string s) (.number (.int 0)) (.number (.int k)) = .ok (.string front) ∧
      substr (.string s) (.number (.int k)) (.number (.int (-1))) = .ok (.string back) ∧
      front ++ back = s) ∧
    (∀ j : Int64, 0 < j → ∃ back,
      substr (.string s) (.number (.int (-j))) (.number (.int (-1))) = .ok (.string back) ∧
      back.toList <:+ s.toList ∧ back.length = min j.toInt.toNat s.length) ∧
    ∀ i j : Int64,
      ((∃ w, slice v (.number (.int i)) (.number (.int j)) = .ok w) ↔
        0 ≤ i ∧ i ≤ j ∧ j.toInt ≤ items.length) ∧
      (0 ≤ i → i ≤ j → j.toInt ≤ items.length → ∃ front middle back, Slices v 0 i front ∧
        Slices v i j middle ∧ Slices v j (Int64.ofNat items.length) back ∧
        front ++ middle ++ back = items) :=
  ⟨substr_inWords hs, fun _ _ _ => substr_error, fun _ => substr_append s, fun _ => substr_last s,
    fun _ _ => ⟨slice_isOk_iff hv, slices_append hv hitems⟩⟩

theorem cuts_lossless_words :
    (∃ front back,
      substr (.string "hello") (.number (.int 0)) (.number (.int 2)) = .ok (.string front) ∧
      substr (.string "hello") (.number (.int 2)) (.number (.int (-1))) = .ok (.string back) ∧
      front ++ back = "hello") ∧
    ∃ w, slice (.tuple [.bool true, .bool false]) (.number (.int 1)) (.number (.int 2)) =
      .ok w := by
  obtain ⟨-, -, happend, -, hslice⟩ := cuts_lossless (s := "hello") (by decide)
    (v := .tuple [.bool true, .bool false]) rfl (by decide)
  exact ⟨happend 2 (by decide), (hslice 1 2).1.2 (by decide)⟩

end StaticConfig.Builtin
