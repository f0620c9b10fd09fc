import Mathlib
import Downlink.Json.Reader
import Downlink.Json.Writer

/-!
# Strings in JSON

A string is read back as it was written, whatever its characters.  Most of them stand for
themselves; a control character without an escape of its own is written as its code unit, and is
below every surrogate.

## Results

* `Json.readString_writeString` — reading a written string gives its text back.
-/

set_option autoImplicit false

namespace Downlink.Json

/-- The pieces that a character is written as: itself, or the code unit of a control character. -/
inductive Piece.Denotes : Piece → Char → Prop
  | char (c : Char) : Denotes (.char c) c
  | control (c : Char) (h : c.toNat < 32) : Denotes (.unit c.toNat) c

/-! ## Escapes -/

theorem hexDigit?_digitChar : ∀ k < 16, hexDigit? (Nat.digitChar k) = some k := by decide

theorem readPieces_hexEscape {c : Char} (h : c.toNat < 32) (rest : List Char) :
    readPieces (hexEscape c ++ rest) =
      (readPieces rest).map fun read => (.unit c.toNat :: read.1, read.2) := by
  have hunit : hexUnit? '0' '0' (Nat.digitChar (c.toNat / 16)) (Nat.digitChar (c.toNat % 16)) =
      some c.toNat := by
    have hzero : hexDigit? '0' = some 0 := rfl
    have hcode : ((0 * 16 + 0) * 16 + c.toNat / 16) * 16 + c.toNat % 16 = c.toNat := by omega
    simp only [hexUnit?, hzero, hexDigit?_digitChar _ (show c.toNat / 16 < 16 by omega),
      hexDigit?_digitChar _ (show c.toNat % 16 < 16 by omega), Option.bind_eq_bind,
      Option.bind_some, hcode]
  simp only [hexEscape, List.cons_append, List.nil_append, readPieces, hunit]
  cases readPieces rest <;> rfl

theorem readPieces_unescape {mark c : Char} (h : unescape? mark = some c) (rest : List Char) :
    readPieces ('\\' :: mark :: rest) =
      (readPieces rest).map fun read => (.char c :: read.1, read.2) := by
  rw [readPieces]
  · rw [h]
    cases readPieces rest <;> rfl
  · rintro _ _ _ _ _ rfl
    cases h

theorem readPieces_plain {c : Char} (hquote : c ≠ '"') (hslash : c ≠ '\\') (hcode : 32 ≤ c.toNat)
    (rest : List Char) : readPieces (c :: rest) =
      (readPieces rest).map fun read => (.char c :: read.1, read.2) := by
  rw [readPieces]
  · rw [if_neg (by rintro (h | h); exacts [hslash h, by omega])]
    cases readPieces rest <;> rfl
  · exact hquote
  · exact fun _ _ _ _ _ h _ => hslash h
  · exact fun _ _ h _ => hslash h

/-- A character is read as one piece, whatever the form it is written in. -/
theorem exists_piece_of_escape (c : Char) : ∃ p : Piece, p.Denotes c ∧ ∀ rest : List Char,
    readPieces (escape c ++ rest) = (readPieces rest).map fun read => (p :: read.1, read.2) := by
  have hshort (mark : Char) (hmark : unescape? mark = some c) :
      ∃ p : Piece, p.Denotes c ∧ ∀ rest : List Char, readPieces (['\\', mark] ++ rest) =
        (readPieces rest).map fun read => (p :: read.1, read.2) :=
    ⟨.char c, .char c, readPieces_unescape hmark⟩
  unfold escape
  split_ifs with hquote hslash hnewline hreturn htab hback hfeed hcontrol
  · exact hshort '"' (by rw [hquote]; rfl)
  · exact hshort '\\' (by rw [hslash]; rfl)
  · exact hshort 'n' (hnewline ▸ rfl)
  · exact hshort 'r' (hreturn ▸ rfl)
  · exact hshort 't' (htab ▸ rfl)
  · exact hshort 'b' (hback ▸ rfl)
  · exact hshort 'f' (hfeed ▸ rfl)
  · exact ⟨.unit c.toNat, .control c hcontrol, readPieces_hexEscape hcontrol⟩
  · exact ⟨.char c, .char c, readPieces_plain hquote hslash (Nat.le_of_not_lt hcontrol)⟩

/-! ## Texts -/

theorem readPieces_flatMap_escape (cs rest : List Char) : ∃ ps : List Piece,
    List.Forall₂ Piece.Denotes ps cs ∧
      readPieces (cs.flatMap escape ++ '"' :: rest) = some (ps, rest) := by
  induction cs with
  | nil => exact ⟨[], .nil, rfl⟩
  | cons c cs ih =>
    obtain ⟨p, hp, hread⟩ := exists_piece_of_escape c
    obtain ⟨ps, hps, hreads⟩ := ih
    refine ⟨p :: ps, .cons hp hps, ?_⟩
    rw [List.flatMap_cons, List.append_assoc, hread, hreads]
    rfl

theorem joinPieces_unit {code : Nat} (h : code < 32) (ps : List Piece) :
    joinPieces (.unit code :: ps) = (joinPieces ps).map (Char.ofNat code :: ·) := by
  have hleading : isLeading code = false := by
    rw [isLeading, decide_eq_false (by omega), Bool.false_and]
  have htrailing : isTrailing code = false := by
    rw [isTrailing, decide_eq_false (by omega), Bool.false_and]
  cases ps with
  | nil => simp [joinPieces, hleading, htrailing]
  | cons => simp [joinPieces, hleading, htrailing]

/-- Pieces that denote characters one by one have no surrogates to join. -/
theorem joinPieces_eq_some {ps : List Piece} {cs : List Char}
    (h : List.Forall₂ Piece.Denotes ps cs) : joinPieces ps = some cs := by
  induction h with
  | nil => rfl
  | cons hp _ ih =>
    cases hp with
    | char => rw [joinPieces, ih]; rfl
    | control _ hcode => rw [joinPieces_unit hcode, ih, Char.ofNat_toNat]; rfl

/-- **A written string is read back.** -/
theorem readString_writeString (s : String) (rest : List Char) :
    readString (s.toList.flatMap escape ++ '"' :: rest) = some (some s, rest) := by
  obtain ⟨ps, hps, hread⟩ := readPieces_flatMap_escape s.toList rest
  rw [readString, hread]
  simp [joinPieces_eq_some hps]

end Downlink.Json
