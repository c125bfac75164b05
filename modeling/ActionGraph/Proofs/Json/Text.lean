import ActionGraph.Json.Reader
import ActionGraph.Json.Writer

/-!
Strings are read back as they were written, whatever characters they consist of.
-/

namespace ActionGraph.Json

variable {c : Char} {cs rest : List Char}

theorem hex_control : ∀ n < 0x20, Text.hex 4 n = ['0', '0', Text.hexDigit (n / 16), Text.hexDigit (n % 16)] ∧
    unit? '0' '0' (Text.hexDigit (n / 16)) (Text.hexDigit (n % 16)) = some n := by
  decide

theorem readText_control (control : c.toNat < 0x20) (cs : List Char) :
    readText ('\\' :: 'u' :: (Text.hex 4 c.toNat ++ cs)) = (readText cs).map fun r => (c :: r.1, r.2) := by
  obtain ⟨four, value⟩ := hex_control c.toNat control
  simp only [four, List.cons_append, List.nil_append, readText, value]
  rw [if_neg (by omega), if_neg (by omega), Char.ofNat_toNat]

theorem readText_plain (quote : c ≠ '"') (slash : c ≠ '\\') (control : ¬ c.toNat < 0x20) (cs : List Char) :
    readText (c :: cs) = (readText cs).map fun r => (c :: r.1, r.2) := by
  rw [readText]
  · rw [if_neg (by simp [slash, control])]
  all_goals simp [quote, slash]

theorem readText_escapeChar (c : Char) (cs : List Char) :
    readText (escapeChar c ++ cs) = (readText cs).map fun r => (c :: r.1, r.2) := by
  unfold escapeChar
  by_cases quote : c = '"'
  · rw [if_pos quote, quote]
    rfl
  · rw [if_neg quote]
    by_cases slash : c = '\\'
    · rw [if_pos slash, slash]
      rfl
    · rw [if_neg slash]
      repeat
        split
        · subst_vars
          rfl
      split
      · exact readText_control ‹_› cs
      · exact readText_plain quote slash ‹_› cs

theorem readText_append (s rest : List Char) : readText (s.flatMap escapeChar ++ '"' :: rest) = some (s, rest) := by
  induction s with
  | nil => rfl
  | cons c s ih => rw [List.flatMap_cons, List.append_assoc, readText_escapeChar, ih, Option.map_some]

theorem readText_renderText (s : String) (rest : List Char) :
    ∃ tail, renderText s ++ rest = '"' :: tail ∧ readText tail = some (s.toList, rest) := by
  refine ⟨s.toList.flatMap escapeChar ++ '"' :: rest, ?_, readText_append s.toList rest⟩
  simp [renderText]

end ActionGraph.Json
