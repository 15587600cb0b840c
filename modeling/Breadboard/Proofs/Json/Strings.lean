import Breadboard.Json.Printer
import Breadboard.Json.Token
import Mathlib.Tactic.SplitIfs

/-!
# JSON strings read back

A string is written in ASCII, with escapes for all other characters, and those beyond the first
plane as two escapes. Reading it gives every character back.
-/

namespace Breadboard.Json

open Text

/-! ## Escapes -/

namespace Token

variable {start index : Nat} {done rest : List Char}

theorem hexValue?_digitChar : ∀ {n : Nat}, n < 16 → hexValue? (Nat.digitChar n) = some n := by
  decide

theorem hexUnit?_hexDigits {n : Nat} (h : n < 0x10000) :
    ∃ a b c d, hexDigits 4 n = [a, b, c, d] ∧ hexUnit? a b c d = some n := by
  refine ⟨_, _, _, _, rfl, ?_⟩
  unfold hexUnit?
  rw [hexValue?_digitChar (Nat.mod_lt _ (by decide)),
    hexValue?_digitChar (Nat.mod_lt _ (by decide)), hexValue?_digitChar (Nat.mod_lt _ (by decide)),
    hexValue?_digitChar (Nat.mod_lt _ (by decide))]
  show some _ = some n
  rw [Option.some.injEq]
  omega

/-- A unit that is no half of a pair is a character of its own. -/
theorem unicodeEscape_hexDigits {n : Nat} (h : n < 0x10000) (hn : n < 0xD800 ∨ 0xDFFF < n)
    (hrest : rest ≠ []) : unicodeEscape index (hexDigits 4 n ++ rest) = .ok (Char.ofNat n, 5) := by
  obtain ⟨a, b, c, d, hdigits, hunit⟩ := hexUnit?_hexDigits h
  obtain ⟨e, rest, rfl⟩ := List.exists_cons_of_ne_nil hrest
  rw [hdigits]
  unfold unicodeEscape
  simp only [List.cons_append, List.nil_append, hunit]
  rw [if_neg (by omega), if_neg (by omega)]

theorem unicodeEscape_pair {n : Nat} (h : n < 0x100000) (hrest : rest ≠ []) :
    unicodeEscape index
        (hexDigits 4 (0xD800 + n / 0x400) ++ (unitEscape (0xDC00 + n % 0x400) ++ rest)) =
      .ok (Char.ofNat (0x10000 + n), 11) := by
  obtain ⟨a, b, c, d, hhigh, hhigh'⟩ := hexUnit?_hexDigits (n := 0xD800 + n / 0x400) (by omega)
  obtain ⟨a', b', c', d', hlow, hlow'⟩ := hexUnit?_hexDigits (n := 0xDC00 + n % 0x400) (by omega)
  obtain ⟨e, rest, rfl⟩ := List.exists_cons_of_ne_nil hrest
  have hvalue : 0x10000 + (0xD800 + n / 0x400 - 0xD800) * 0x400 +
      (0xDC00 + n % 0x400 - 0xDC00) = 0x10000 + n := by omega
  have hfound : lowSurrogate? (index + 6) ('\\' :: 'u' :: a' :: b' :: c' :: d' :: e :: rest) =
      .ok (some (0xDC00 + n % 0x400)) := by
    unfold lowSurrogate?
    simp only [and_self, if_true, hlow']
    rw [if_pos (by omega)]
  rw [hhigh]
  unfold unitEscape unicodeEscape
  simp only [hlow, List.cons_append, List.nil_append, hhigh']
  rw [if_pos (by omega), hfound]
  simp only [hvalue]

/-- An escape of these letters within a string. -/
theorem stringBody_escape {letters : List Char} {c : Char}
    (h : escape start index (letters ++ rest) = .ok (c, letters.length)) :
    stringBody start index done ('\\' :: letters ++ rest) =
      stringBody start (index + ('\\' :: letters).length) (c :: done) rest := by
  have hquote : ('\\' = '"') = False := by decide
  have hcontrol : ('\\'.toNat < 32) = False := by decide
  have hindex : index + 1 + letters.length = index + ('\\' :: letters).length := by
    rw [List.length_cons]
    omega
  rw [List.cons_append, stringBody]
  simp only [hquote, hcontrol, if_false, if_true, h]
  rw [List.drop_left, hindex]

theorem stringBody_plain {c : Char} (hquote : c ≠ '"') (hbackslash : c ≠ '\\')
    (hcontrol : 32 ≤ c.toNat) :
    stringBody start index done (c :: rest) = stringBody start (index + 1) (c :: done) rest := by
  rw [stringBody, if_neg hquote, if_neg (Nat.not_lt.mpr hcontrol), if_neg hbackslash]

theorem escape_simple {l c : Char} (hl : l ≠ 'u') (h : simpleEscape? l = some c) :
    escape start index (l :: rest) = .ok (c, 1) := by
  unfold escape
  simp only [hl, if_false, h]

theorem escape_unicode : escape start index ('u' :: rest) = unicodeEscape index rest := rfl

theorem eq_ofNat_of_toNat {c : Char} {n : Nat} (h : c.toNat = n) : c = Char.ofNat n := by
  rw [← h, Char.ofNat_toNat]

/-- What is written for a character is read as that character. -/
theorem stringBody_escaped (c : Char) (hrest : rest ≠ []) :
    stringBody start index done (escaped c ++ rest) =
      stringBody start (index + (escaped c).length) (c :: done) rest := by
  have hsimple {l : Char} (hl : l ≠ 'u') (h : simpleEscape? l = some c) :
      stringBody start index done (['\\', l] ++ rest) =
        stringBody start (index + ['\\', l].length) (c :: done) rest :=
    stringBody_escape (escape_simple hl h)
  have hvalid : c.toNat < 0xD800 ∨ 0xDFFF < c.toNat ∧ c.toNat < 0x110000 := c.valid
  unfold escaped
  split_ifs with hquote hbackslash hnewline hreturn htab hbackspace hfeed hplain hunit
  · exact hsimple (by decide) (by rw [hquote]; rfl)
  · exact hsimple (by decide) (by rw [hbackslash]; rfl)
  · exact hsimple (by decide) (by rw [hnewline]; rfl)
  · exact hsimple (by decide) (by rw [hreturn]; rfl)
  · exact hsimple (by decide) (by rw [htab]; rfl)
  · exact hsimple (by decide) (by rw [eq_ofNat_of_toNat hbackspace]; rfl)
  · exact hsimple (by decide) (by rw [eq_ofNat_of_toNat hfeed]; rfl)
  · exact stringBody_plain hquote hbackslash hplain.1
  · have hescape : escape start index ('u' :: hexDigits 4 c.toNat ++ rest) =
        .ok (c, ('u' :: hexDigits 4 c.toNat).length) := by
      rw [List.cons_append, escape_unicode, unicodeEscape_hexDigits hunit (by omega) hrest,
        Char.ofNat_toNat, List.length_cons, length_hexDigits]
    exact stringBody_escape hescape
  · generalize hn : c.toNat - 0x10000 = n
    have hc : Char.ofNat (0x10000 + n) = c := by
      rw [show 0x10000 + n = c.toNat by omega, Char.ofNat_toNat]
    have hescape : escape start index
        ('u' :: (hexDigits 4 (0xD800 + n / 0x400) ++ unitEscape (0xDC00 + n % 0x400)) ++ rest) =
        .ok (c, ('u' :: (hexDigits 4 (0xD800 + n / 0x400) ++
          unitEscape (0xDC00 + n % 0x400))).length) := by
      rw [List.cons_append, escape_unicode, List.append_assoc,
        unicodeEscape_pair (by omega) hrest, hc, unitEscape, List.length_cons, List.length_append,
        List.length_cons, List.length_cons, length_hexDigits, length_hexDigits]
    exact stringBody_escape hescape

/-- A written text is read up to its closing quote. -/
theorem stringBody_flatMap (cs : List Char) :
    stringBody start index done (cs.flatMap escaped ++ '"' :: rest) =
      .ok (String.ofList (done.reverse ++ cs), index + (cs.flatMap escaped).length + 1) := by
  induction cs generalizing index done with
  | nil =>
    rw [List.flatMap_nil, List.nil_append, List.append_nil, stringBody, if_pos rfl]
    rfl
  | cons c cs ih =>
    rw [List.flatMap_cons, List.append_assoc, stringBody_escaped c (by simp), ih,
      List.reverse_cons, List.append_assoc, List.singleton_append, List.length_append,
      Nat.add_assoc index]

theorem next_stringChars (s : String) (index : Nat) (rest : List Char) :
    next index '"' (s.toList.flatMap escaped ++ '"' :: rest) =
      (.text s, (stringChars s).length) := by
  have hlength : index + 1 + (s.toList.flatMap escaped).length + 1 - index =
      (stringChars s).length := by
    simp only [stringChars, List.cons_append, List.length_cons, List.length_append, List.length_nil]
    omega
  have hread : stringBody index (index + 1) [] (s.toList.flatMap escaped ++ '"' :: rest) = _ :=
    stringBody_flatMap s.toList
  rw [List.reverse_nil, List.nil_append, String.ofList_toList] at hread
  unfold next
  rw [hread]
  exact congrArg (Prod.mk (Token.text s)) hlength

end Token

/-! ## Characters -/

theorem return_not_mem_hexDigits (w n : Nat) : '\r' ∉ hexDigits w n := by
  induction w generalizing n with
  | zero => exact List.not_mem_nil
  | succ w ih =>
    rw [hexDigits, List.mem_append, List.mem_singleton]
    rintro (h | h)
    · exact ih _ h
    · exact Nat.digitChar_ne '\r' (by decide) h.symm

theorem return_not_mem_escaped (c : Char) : '\r' ∉ escaped c := by
  have hunit (n : Nat) : '\r' ∉ unitEscape n := by
    unfold unitEscape
    simp [return_not_mem_hexDigits]
  unfold escaped
  split_ifs with hquote hbackslash hnewline hreturn htab hbackspace hfeed hplain
  · decide
  · decide
  · decide
  · decide
  · decide
  · decide
  · decide
  · rw [List.mem_singleton]
    exact Ne.symm hreturn
  · exact hunit _
  · rw [List.mem_append]
    exact not_or.mpr ⟨hunit _, hunit _⟩

theorem return_not_mem_stringChars (s : String) : '\r' ∉ stringChars s := by
  unfold stringChars
  simp [return_not_mem_escaped]

end Breadboard.Json
