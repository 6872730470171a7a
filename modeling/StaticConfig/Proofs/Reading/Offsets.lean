import StaticConfig.Proofs.Reading.Places

/-!
Positions of offsets. The position of a byte offset counts the line breaks before it and the
characters from the start of its line. In a text that ends in a line break the table of lines has a
last line that starts at this line break and not behind it, so the offset of the line break and the
end of the text get a position in this line. All other offsets are right.
-/
namespace StaticConfig.Source

open StaticConfig.Lexer (Boundary moved_start byteLength_pos)

variable {source : Source} {offset : Nat} {front back : List Char}

/-- The line and the column of an offset: one more than the ends of lines before it, and one more
than the characters between the start of its line and it. -/
def placeOf (source : Source) (offset : Nat) : Nat × Nat :=
  (1 + (source.slice 0 offset).count '\n', 1 + (lastLine (source.slice 0 offset)).length)

/-- The text ends in a line break, and the offset is that of this line break or behind it. -/
def AtLastBreak (source : Source) (offset : Nat) : Prop :=
  source.text.toList.getLast? = some '\n' ∧ source.size ≤ offset + 1

theorem exists_split (h : Boundary 0 source.text.toList offset) :
    ∃ front back, source.text.toList = front ++ back ∧ offset = byteLength front := by
  obtain ⟨front, ⟨back, hsplit⟩, hoffset⟩ := h
  exact ⟨front, back, hsplit.symm, by rw [hoffset, Nat.zero_add]⟩

theorem size_of_split (h : source.text.toList = front ++ back) :
    source.size = byteLength front + byteLength back := by
  rw [source.size_eq, h, byteLength_append]

theorem placeOf_byteLength (h : source.text.toList = front ++ back) :
    source.placeOf (byteLength front) = (1 + front.count '\n', 1 + (lastLine front).length) := by
  have hslice : source.slice 0 (byteLength front) = front :=
    Segment.slice_eq ⟨[], back, h, rfl, rfl⟩
  rw [placeOf, hslice]

/-- A place that is not at the last line break is inside of the text. -/
theorem inside_of_not_atLastBreak (h : source.text.toList = front ++ back)
    (hbreak : ¬source.AtLastBreak (byteLength front)) : Inside front back := by
  have hsize := size_of_split h
  constructor
  · intro hback
    have hnewline : byteLength ['\n'] = 1 := rfl
    rw [hback, hnewline] at hsize
    exact hbreak ⟨by rw [h, hback, List.getLast?_concat], hsize.le⟩
  · intro hback hlast
    rw [hback, List.append_nil] at h
    rw [hback] at hsize
    exact hbreak ⟨by rw [h, hlast], hsize.le.trans (Nat.le_succ _)⟩

/-! The table of lines of a text that ends in a line break. -/

/-- Every line that has ended starts before the line behind it. -/
theorem lt_of_mem_closedLines {cs : List Char} {prior : Char} {start offset : Nat}
    (h : start ≤ offset) : ∀ l ∈ (closedLines prior start offset cs).1,
      l.1 < (closedLines prior start offset cs).2 := by
  induction cs generalizing prior start offset with
  | nil => exact nofun
  | cons c cs ih =>
    rw [closedLines]
    split
    · obtain ⟨-, hlast⟩ := @le_of_closedLines cs c (offset + 1) (offset + 1) (Nat.le_refl _)
      refine List.forall_mem_cons.2 ⟨?_, ih (Nat.le_refl _)⟩
      dsimp only
      omega
    · exact ih (by omega)

theorem lt_size_of_mem_closedLines (source : Source) :
    ∀ l ∈ (closedLines ' ' 0 0 source.text.toList).1, l.1 < source.size := by
  intro l hl
  obtain ⟨-, hstart, -⟩ := closedLines_start source.text.toList
  have hl := lt_of_mem_closedLines (Nat.le_refl 0) l hl
  have hends := size_of_split (endedLines_append_lastLine source.text.toList).symm
  omega

theorem closedLines_sorted {cs : List Char} {prior : Char} {start offset : Nat}
    (h : start ≤ offset) :
    (closedLines prior start offset cs).1.Pairwise fun a b => a.1 ≤ b.1 := by
  induction cs generalizing prior start offset with
  | nil => exact List.Pairwise.nil
  | cons c cs ih =>
    rw [closedLines]
    split
    · obtain ⟨hlater, -⟩ := @le_of_closedLines cs c (offset + 1) (offset + 1) (Nat.le_refl _)
      refine List.pairwise_cons.2 ⟨fun l hl => ?_, ih (Nat.le_refl _)⟩
      have hl := hlater l hl
      dsimp only
      omega
    · exact ih (by omega)

/-- The lines stand in the table in the order of their starts, so a search by halves finds the
lines that start before an offset. -/
theorem lines_sorted (source : Source) : source.lines.Pairwise fun a b => a.1 ≤ b.1 := by
  rw [lines]
  refine List.pairwise_append.2 ⟨closedLines_sorted (Nat.le_refl 0), ?_, fun a ha b hb => ?_⟩
  · split
    · exact List.pairwise_singleton _ _
    · split
      · exact List.pairwise_singleton _ _
      · exact List.pairwise_singleton _ _
  · have hnext := lt_of_mem_closedLines (Nat.le_refl 0) a ha
    have hsize := source.lt_size_of_mem_closedLines a ha
    split at hb
    · cases List.mem_singleton.1 hb
      exact hnext.le
    · split at hb
      · omega
      · cases List.mem_singleton.1 hb
        dsimp only
        omega

theorem lines_of_last_break {cs : List Char} (h : source.text.toList = cs ++ ['\n']) :
    source.lines = (closedLines ' ' 0 0 source.text.toList).1 ++
      [(byteLength cs, byteLength cs)] := by
  obtain ⟨-, hstart, -⟩ := closedLines_start source.text.toList
  have hnewline : byteLength ['\n'] = 1 := rfl
  have hsize := size_of_split h
  rw [hnewline] at hsize
  have hended : endedLines source.text.toList = source.text.toList := by
    rw [h, endedLines_append_newline]
  rw [hended, ← source.size_eq] at hstart
  rw [lines]
  dsimp only
  rw [hstart, if_neg (Nat.lt_irrefl _), if_neg (by omega), hsize, Nat.add_sub_cancel]

/-- From the start of the last line on there is nothing, or the line break. -/
theorem length_slice_of_last_break {cs : List Char} (h : source.text.toList = cs ++ ['\n'])
    (hle : byteLength cs ≤ offset) (hoffset : offset ≤ byteLength cs + 1) :
    (source.slice (byteLength cs) offset).length = offset - byteLength cs := by
  have hnewline : byteLength ['\n'] = 1 := rfl
  have hplaces : offset = byteLength cs ∨ offset = byteLength (cs ++ ['\n']) := by
    rw [byteLength_append, hnewline]
    omega
  rcases hplaces with rfl | rfl
  · have hempty : source.slice (byteLength cs) (byteLength cs) = [] :=
      Segment.slice_eq ⟨cs, ['\n'], by rw [h, List.append_nil], rfl, by rw [List.append_nil]⟩
    rw [hempty, Nat.sub_self]
    rfl
  · have hbreak : source.slice (byteLength cs) (byteLength (cs ++ ['\n'])) = ['\n'] :=
      Segment.slice_eq ⟨cs, [], by rw [h, List.append_nil], rfl, rfl⟩
    rw [hbreak, byteLength_append, hnewline, Nat.add_sub_cancel_left]
    rfl

/-- An offset at the last line break is put into a line of its own, which starts at this break. -/
theorem position_of_atLastBreak (h : source.AtLastBreak offset) (hoffset : offset ≤ source.size) :
    source.position offset = (1 + source.text.toList.count '\n', 2 + offset - source.size) := by
  obtain ⟨hlast, hle⟩ := h
  obtain ⟨cs, hsplit⟩ := List.getLast?_eq_some_iff.1 hlast
  obtain ⟨hlength, -, -⟩ := closedLines_start source.text.toList
  have hnewline : byteLength ['\n'] = 1 := rfl
  have hsize := size_of_split hsplit
  rw [hnewline] at hsize
  have hlines := lines_of_last_break hsplit
  have hstarted : source.lines.takeWhile (fun l => decide (l.1 ≤ offset)) = source.lines := by
    rw [List.takeWhile_eq_self_iff, hlines, List.forall_mem_append, List.forall_mem_singleton]
    refine ⟨fun l hl => decide_eq_true ?_, decide_eq_true ?_⟩
    · have hl := source.lt_size_of_mem_closedLines l hl
      omega
    · dsimp only
      omega
  have hindex : max 1 (source.lines.takeWhile fun l => decide (l.1 ≤ offset)).length - 1 =
      source.text.toList.count '\n' := by
    rw [hstarted, hlines, List.length_append, hlength, List.length_singleton]
    omega
  have hstart : source.lines[source.text.toList.count '\n']?.getD (0, 0) =
      (byteLength cs, byteLength cs) := by
    rw [hlines, ← hlength, List.getElem?_append_right (Nat.le_refl _), Nat.sub_self]
    rfl
  have hslice : (source.slice (byteLength cs) offset).length = offset - byteLength cs :=
    length_slice_of_last_break hsplit (by omega) (by omega)
  rw [position, hindex, hstart, hslice, Nat.add_comm 1]
  exact congrArg _ (by omega)

/-- There the position is wrong: the line of the line break is too large, and for the end of the
text the column is. -/
theorem position_ne_of_atLastBreak (h : source.AtLastBreak offset)
    (hboundary : Boundary 0 source.text.toList offset) :
    source.position offset ≠ source.placeOf offset := by
  obtain ⟨front, back, hsplit, rfl⟩ := exists_split hboundary
  have hsize := size_of_split hsplit
  rw [position_of_atLastBreak h (by omega), placeOf_byteLength hsplit]
  intro heq
  obtain ⟨hline, hcol⟩ := Prod.mk.inj heq
  have hlast := h.1
  by_cases hback : back = []
  · rw [hback, List.append_nil] at hsplit
    rw [hsplit] at hlast
    have hempty : lastLine front = [] := lastLine_eq_nil_iff.2 (.inr hlast)
    rw [hempty, hsize, hback] at hcol
    have hnone : byteLength [] = 0 := rfl
    rw [hnone, List.length_nil] at hcol
    omega
  · -- The line break is still ahead, but it is counted.
    rw [hsplit, List.getLast?_append_of_ne_nil _ hback] at hlast
    have hcount : 0 < back.count '\n' := List.count_pos_iff.2 (List.mem_of_getLast? hlast)
    rw [hsplit, List.count_append] at hline
    omega

/-- The position of an offset between characters is its line and its column, unless the text ends in
a line break and the offset is that of this break or of the end. Then the line is one more than
all line breaks. -/
theorem position_eq_placeOf_iff (h : Boundary 0 source.text.toList offset) :
    (source.position offset = source.placeOf offset ↔ ¬source.AtLastBreak offset) ∧
      (source.AtLastBreak offset → source.position offset =
        (1 + source.text.toList.count '\n', 2 + offset - source.size)) ∧
      source.lines.Pairwise fun a b => a.1 ≤ b.1 := by
  have hoffset : offset ≤ source.size := by
    obtain ⟨front, back, hsplit, rfl⟩ := exists_split h
    have hsize := size_of_split hsplit
    omega
  refine ⟨⟨fun hright hbreak => position_ne_of_atLastBreak hbreak h hright, fun hbreak => ?_⟩,
    fun hbreak => position_of_atLastBreak hbreak hoffset, source.lines_sorted⟩
  obtain ⟨front, back, hsplit, rfl⟩ := exists_split h
  rw [position_eq_moved (inside_of_not_atLastBreak hsplit hbreak) hsplit, moved_start,
    placeOf_byteLength hsplit]

/-- The end of a text without a line break there, behind a character of two bytes. -/
theorem position_eq_placeOf_iff_wide :
    Boundary 0 "a\r\nbé".toList 6 ∧
      (⟨"main.tf", "a\r\nbé"⟩ : Source).position 6 =
        (⟨"main.tf", "a\r\nbé"⟩ : Source).placeOf 6 ∧
      (⟨"main.tf", "a\r\nbé"⟩ : Source).placeOf 6 = (2, 3) := by
  have hboundary : Boundary 0 "a\r\nbé".toList 6 := ⟨"a\r\nbé".toList, List.prefix_rfl, by decide⟩
  have hlast : ¬(⟨"main.tf", "a\r\nbé"⟩ : Source).AtLastBreak 6 := fun h => absurd h.1 (by decide)
  exact ⟨hboundary, (position_eq_placeOf_iff hboundary).1.2 hlast, by decide⟩

/-- The line break at the end of a text, and the end, which is put behind a line break that it
follows. -/
theorem position_ne_placeOf :
    (⟨"main.tf", "a\n"⟩ : Source).position 1 = (2, 1) ∧
      (⟨"main.tf", "a\n"⟩ : Source).placeOf 1 = (1, 2) ∧
        (⟨"main.tf", "a\n"⟩ : Source).position 2 = (2, 2) ∧
          (⟨"main.tf", "a\n"⟩ : Source).placeOf 2 = (2, 1) := by
  decide

end StaticConfig.Source
