import ProgramSearch.Proofs.Text.Bytes
import ProgramSearch.Text.Lines

/-!
# Lines of a file

A text without line feeds is found again as a line, but for a carriage return at its end, which goes
with the line end.
-/
namespace ProgramSearch.Text

variable {line rest : List UInt8}

theorem splitLines_byte {b : UInt8} (front : List UInt8) (h : b ≠ 0x0A) (rest : List UInt8) :
    splitLines front (b :: rest) = splitLines (b :: front) rest := by
  rw [splitLines.eq_def]
  dsimp only
  rw [beq_eq_false_iff_ne.mpr h, if_neg Bool.false_ne_true]

theorem splitLines_feed (front rest : List UInt8) :
    splitLines front (0x0A :: rest) =
      (match front with
        | 0x0D :: front => front.reverse
        | front => front.reverse) :: splitLines [] rest := by
  rw [splitLines.eq_def]
  rfl

theorem splitLines_append (front : List UInt8) (h : 0x0A ∉ line) (rest : List UInt8) :
    splitLines front (line ++ rest) = splitLines (line.reverse ++ front) rest := by
  induction line generalizing front with
  | nil => rfl
  | cons b line ih =>
    have hb : b ≠ 0x0A := by
      rintro rfl
      exact h List.mem_cons_self
    rw [List.cons_append, splitLines_byte front hb,
      ih _ fun hmem => h (List.mem_cons_of_mem b hmem), List.reverse_cons, List.append_assoc]
    rfl

/-- The last line, which has no end. -/
theorem splitLines_last (h : 0x0A ∉ line) (ne : line ≠ []) : splitLines [] line = [line] := by
  have hsplit := splitLines_append [] h []
  rw [List.append_nil, List.append_nil, splitLines, List.reverse_reverse] at hsplit
  rw [hsplit, if_neg (by simpa using ne)]

section Texts

variable {s : String} (h : '\n' ∉ s.toList)
include h

theorem feed_not_mem_utf8 : 0x0A ∉ utf8 s := by
  intro hmem
  obtain ⟨c, hc, hnumber⟩ := exists_char_of_mem_utf8 hmem (by decide)
  obtain rfl : c = '\n' := Char.toNat_inj.mp hnumber
  exact h hc

/-- A text on a line is read as itself, or without the carriage return at its end. -/
theorem splitLines_utf8 (rest : List UInt8) :
    ∃ t, (t = s ∨ s = t ++ "\r") ∧
      splitLines [] (utf8 s ++ 0x0A :: rest) = utf8 t :: splitLines [] rest := by
  rw [splitLines_append [] (feed_not_mem_utf8 h), List.append_nil, splitLines_feed]
  split
  · rename_i front hfront
    have hs : utf8 s = front.reverse ++ [0x0D] := by
      rw [← List.reverse_reverse (utf8 s), hfront, List.reverse_cons]
    obtain ⟨t, ht, hbytes⟩ := exists_eq_append_of_utf8 hs (by decide)
    exact ⟨t, .inr ht, by rw [hbytes]⟩
  · exact ⟨s, .inl rfl, by rw [List.reverse_reverse]⟩

theorem lines_utf8 (rest : List UInt8) :
    ∃ t, (t = s ∨ s = t ++ "\r") ∧
      lines (utf8 s ++ 0x0A :: rest) = (t :: (lines rest).1, (lines rest).2) := by
  obtain ⟨t, ht, hsplit⟩ := splitLines_utf8 h rest
  exact ⟨t, ht, by rw [lines, hsplit, textsOf, fromUTF8?_utf8, lines]⟩

/-- A text on the last line is read as itself. -/
theorem lines_utf8_last (ne : s ≠ "") : lines (utf8 s) = ([s], true) := by
  have hne : utf8 s ≠ [] := fun hnil => ne (utf8_inj hnil)
  rw [lines, splitLines_last (feed_not_mem_utf8 h) hne, textsOf, fromUTF8?_utf8]
  rfl

end Texts

end ProgramSearch.Text
