-- Strings in JSON text. Whatever a string shows of a text, character by
-- character, is read as that text again.
import Metronome.Json.Printer
import Metronome.Json.Reader
import Metronome.Proofs.Whole

namespace Metronome.Json

variable {c : Char} {cs rest : List Char}

/-! ## One character -/

theorem pieces_escaped {e : Char} (h : simpleEscape? e = some c) (cs : List Char) :
    pieces ('\\' :: e :: cs) = (pieces cs).map fun r => (.char c :: r.1, r.2) := by
  have hu : e ≠ 'u' := by
    rintro rfl
    cases h
  rw [pieces, h]
  intro _ _ _ _ _ hletter _
  exact hu hletter

theorem pieces_code {n : Nat} (h : n < 0x20) (cs : List Char) :
    pieces (['\\', 'u', '0', '0', Text.lowerHexDigit (n / 16), Text.lowerHexDigit (n % 16)] ++ cs) =
      (pieces cs).map fun r => (.char (Char.ofNat n) :: r.1, r.2) := by
  have hcode := Text.hexNumber?_byte Text.hexValue?_lower (show n < 256 by omega)
  simp only [List.cons_append, List.nil_append, pieces, hcode]
  rw [if_neg (by omega)]

theorem pieces_plain (hquote : c ≠ '\x22') (hslash : c ≠ '\\') (hplain : ¬ c.toNat < 0x20)
    (cs : List Char) :
    pieces (c :: cs) = (pieces cs).map fun r => (.char c :: r.1, r.2) := by
  rw [pieces, if_neg (by simp [hplain, hslash])]
  · exact hquote
  · intro a b d e cs' hcons
    exact absurd hcons hslash
  · intro e cs' hcons
    exact absurd hcons hslash

/-- However a character is shown, it is read again. -/
theorem pieces_escape (c : Char) (cs : List Char) :
    pieces (escape c ++ cs) = (pieces cs).map fun r => (.char c :: r.1, r.2) := by
  unfold escape
  split_ifs with hquote hslash hback hform hline hreturn htab hcontrol
  · subst hquote
    exact pieces_escaped rfl cs
  · subst hslash
    exact pieces_escaped rfl cs
  · subst hback
    exact pieces_escaped rfl cs
  · subst hform
    exact pieces_escaped rfl cs
  · subst hline
    exact pieces_escaped rfl cs
  · subst hreturn
    exact pieces_escaped rfl cs
  · subst htab
    exact pieces_escaped rfl cs
  · rw [pieces_code hcontrol, Char.ofNat_toNat]
  · exact pieces_plain hquote hslash hcontrol cs

/-! ## A whole string -/

theorem pieces_text (cs rest : List Char) :
    pieces (cs.flatMap escape ++ '\x22' :: rest) = some (cs.map .char, rest) := by
  induction cs with
  | nil => rfl
  | cons c cs ih =>
    rw [List.flatMap_cons, List.append_assoc, pieces_escape, ih]
    rfl

theorem join_map_char (cs : List Char) : join (cs.map .char) = some cs := by
  induction cs with
  | nil => rfl
  | cons c cs ih => rw [List.map_cons, join, ih, Option.map_some]

/-- A printed string is read again, whatever follows it. -/
theorem string_text (s : String) (rest : List Char) :
    string (s.toList.flatMap escape ++ '\x22' :: rest) = some (some s, rest) := by
  rw [string, pieces_text, Option.map_some, join_map_char, Option.map_some, String.ofList_toList]

theorem toList_quoted (s : String) :
    (quoted s).toList = '\x22' :: (s.toList.flatMap escape ++ ['\x22']) := by
  rw [quoted, String.toList_ofList]

end Metronome.Json
