import Breadboard.Json.Reader
import Breadboard.Proofs.Json.Strings
import Breadboard.Proofs.Output.Overlong
import Breadboard.Proofs.Netlist.DeviceLines

/-!
# JSON objects read back

A written object of whole numbers is read as the object that was written, its fields in order,
unless one of the numbers has too many digits to be read. The reader is followed token by token.
-/

namespace Breadboard.Json

open Text Numeral

/-! ## Token by token -/

namespace Token

/-- The tokens read before stand behind those of the text. -/
theorem scan_append (index : Nat) (done : List (Token × Nat)) (cs : List Char) :
    scan index done cs = scan index [] cs ++ done := by
  induction h : cs.length using Nat.strong_induction_on generalizing index done cs with
  | _ n ih =>
    subst h
    cases cs with
    | nil => simp [scan]
    | cons c cs =>
      rw [scan, scan]
      split
      · exact ih cs.length (Nat.lt_succ_self _) _ _ _ rfl
      · dsimp only
        split
        · rfl
        · have hlength : (cs.drop ((next index c cs).2 - 1)).length < (c :: cs).length := by
            rw [List.length_drop, List.length_cons]
            omega
          rw [ih _ hlength _ _ _ rfl, ih _ hlength _ [_] _ rfl, List.append_assoc,
            List.singleton_append]

end Token

namespace Reader

variable {nesting : Nesting} {r r' : Reader} {index : Nat} {c : Char} {cs rest : List Char}
  {t : Token}

/-- The reader after a text that starts at this index. -/
def feed (r : Reader) (nesting : Nesting) (index : Nat) (cs : List Char) : Except Stop Reader :=
  r.run nesting (Token.scan index [] cs).reverse

@[simp] theorem feed_nil : r.feed nesting index [] = .ok r := by
  simp [feed, Token.scan, run]

theorem feed_gaps {gaps : List Char} (h : ∀ c ∈ gaps, Token.isGap c) :
    r.feed nesting index (gaps ++ cs) = r.feed nesting (index + gaps.length) cs := by
  induction gaps generalizing index with
  | nil => rfl
  | cons c gaps ih =>
    obtain ⟨hc, hgaps⟩ := List.forall_mem_cons.mp h
    have hscan : r.feed nesting index (c :: (gaps ++ cs)) =
        r.feed nesting (index + 1) (gaps ++ cs) := by
      unfold feed
      rw [Token.scan, if_pos hc]
    rw [List.cons_append, hscan, ih hgaps, List.length_cons, Nat.add_assoc, Nat.add_comm 1]

theorem feed_token (hgap : Token.isGap c = false)
    (hnext : Token.next index c (cs ++ rest) = (t, (c :: cs).length)) (hlast : t.isLast = false)
    (hstep : r.step nesting t index = .ok r') :
    r.feed nesting index (c :: cs ++ rest) = r'.feed nesting (index + (c :: cs).length) rest := by
  have hindex : index + 1 + ((c :: cs).length - 1) = index + (c :: cs).length := by
    rw [List.length_cons]
    omega
  have hrest : (cs ++ rest).drop ((c :: cs).length - 1) = rest := by
    rw [List.length_cons, Nat.add_sub_cancel, List.drop_left]
  unfold feed
  rw [List.cons_append, Token.scan, if_neg (by simp [hgap])]
  simp only [hnext, hlast, Bool.false_eq_true, if_false, hindex, hrest]
  rw [Token.scan_append, List.reverse_append, List.reverse_singleton, List.singleton_append, run,
    hstep]

theorem feed_error {n : Nat} {e : Stop} (hgap : Token.isGap c = false)
    (hnext : Token.next index c cs = (t, n)) (hstep : r.step nesting t index = .error e) :
    r.feed nesting index (c :: cs) = .error e := by
  unfold feed
  rw [Token.scan, if_neg (by simp [hgap])]
  simp only [hnext]
  split
  · rw [List.reverse_singleton, run, hstep]
  · rw [Token.scan_append, List.reverse_append, List.reverse_singleton, List.singleton_append, run,
      hstep]

end Reader

/-! ## Whole numbers -/

/-- A text that ends the number in front of it: the end of a line or of a field. -/
def EndsNumber (rest : List Char) : Prop := ∀ c ∈ rest.head?, c = ',' ∨ c = '\n'

/-- Whether a number is read: it has no more digits than that. -/
def IsReadable (n : Nat) : Prop := (Nat.toDigits 10 n).length ≤ maxDigits

instance : DecidablePred IsReadable :=
  fun n => inferInstanceAs (Decidable ((Nat.toDigits 10 n).length ≤ maxDigits))

namespace Token

variable {n : Nat} {rest : List Char}

theorem isDigit_of_mem_toDigits {c : Char} (h : c ∈ Nat.toDigits 10 n) : c.isDigit :=
  Nat.isDigit_of_mem_toDigits (by decide) (by decide) h

/-- Only zero starts with a zero. -/
theorem head?_toDigits_ne (h : n ≠ 0) : (Nat.toDigits 10 n).head? ≠ some '0' := by
  induction n using Nat.strong_induction_on with
  | _ n ih =>
    by_cases hsmall : n < 10
    · rw [Nat.toDigits_of_lt_base hsmall, List.head?_cons, ne_eq, Option.some.injEq,
        Nat.digitChar_eq_zero]
      exact h
    · have hquotient : n / 10 ≠ 0 := by omega
      rw [Nat.toDigits_of_base_le (by decide) (by omega),
        List.head?_append_of_ne_nil _ Nat.toDigits_ne_nil]
      exact ih (n / 10) (by omega) hquotient

theorem natural_toDigits :
    natural ((Nat.toDigits 10 n).map fun c => c.toNat - 48) =
      if IsReadable n then .ok n else .error ⟨(Nat.toDigits 10 n).length⟩ := by
  have hvalue : Decimal.ofDigits ((Nat.toDigits 10 n).map fun c => c.toNat - 48) = n := by
    calc Decimal.ofDigits ((Nat.toDigits 10 n).map fun c => c.toNat - 48)
        = Nat.ofDigitChars 10 (Nat.toDigits 10 n) 0 := by
          rw [Decimal.ofDigits, List.foldl_map, Nat.ofDigitChars_eq_foldl]
          rfl
      _ = n := Nat.ofDigitChars_ten_toDigits
  unfold natural
  rw [List.length_map, hvalue]
  by_cases h : IsReadable n
  · rw [if_pos h, if_neg (Nat.not_lt.mpr h)]
  · rw [if_neg h, if_pos (Nat.lt_of_not_le h)]

/-- The whole part of a number that nothing of a number follows. -/
theorem whole_toDigits (hrest : EndsNumber rest) :
    (if (Nat.toDigits 10 n ++ rest).head? = some '0' then ['0']
      else (Nat.toDigits 10 n ++ rest).takeWhile Char.isDigit) = Nat.toDigits 10 n := by
  rw [List.head?_append_of_ne_nil _ Nat.toDigits_ne_nil]
  by_cases hzero : n = 0
  · subst hzero
    rfl
  · rw [if_neg (head?_toDigits_ne hzero),
      List.takeWhile_append_of_pos fun c hc => isDigit_of_mem_toDigits hc]
    cases rest with
    | nil => rw [List.takeWhile_nil, List.append_nil]
    | cons c rest =>
      have hc : ¬ c.isDigit = true := by
        rcases hrest c rfl with rfl | rfl <;> decide
      rw [List.takeWhile_cons_of_neg hc, List.append_nil]

/-- The token of a whole number. -/
def ofNatural (n : Nat) : Token :=
  if IsReadable n then .scalar (.int n) else .badNumber ⟨(Nat.toDigits 10 n).length⟩

theorem number_toDigits (hrest : EndsNumber rest) :
    number (Nat.toDigits 10 n ++ rest) = some (ofNatural n, (Nat.toDigits 10 n).length) := by
  have hsign : ((Nat.toDigits 10 n ++ rest).head? = some '-') = False := by
    rw [List.head?_append_of_ne_nil _ Nat.toDigits_ne_nil, eq_iff_iff, iff_false]
    intro h
    exact absurd (isDigit_of_mem_toDigits (List.mem_of_mem_head? h)) (by decide)
  have hpoint : (rest.head? = some '.') = False := by
    rw [eq_iff_iff, iff_false]
    intro h
    rcases hrest '.' h with h | h <;> exact absurd h (by decide)
  have hne : (Nat.toDigits 10 n).isEmpty = false := by
    rw [List.isEmpty_eq_false_iff]
    exact Nat.toDigits_ne_nil
  unfold number
  simp only [hsign, if_false, whole_toDigits hrest, hne, List.drop_left, hpoint,
    List.isEmpty_nil, if_true, List.drop_zero, Bool.false_eq_true, Nat.sub_self, Nat.zero_add,
    Nat.add_zero, natural_toDigits, ofNatural]
  cases rest with
  | nil => by_cases h : IsReadable n <;> simp [h]
  | cons c rest =>
    have hmark : isExponentMark c = false := by rcases hrest c rfl with rfl | rfl <;> decide
    by_cases h : IsReadable n <;> simp [h, hmark]

theorem name?_of_isDigit {c : Char} (hc : c.isDigit) (cs : List Char) : name? (c :: cs) = none := by
  have hheads : names.all fun e => e.1.toList.head?.any fun d => !d.isDigit := by decide
  have hfind : names.find? (fun e => e.1.toList.isPrefixOf (c :: cs)) = none := by
    rw [List.find?_eq_none]
    intro e he hprefix
    have hhead := List.all_eq_true.mp hheads e he
    cases hchars : e.1.toList with
    | nil =>
      rw [hchars] at hhead
      exact absurd hhead (by decide)
    | cons d ds =>
      rw [hchars, List.isPrefixOf, Bool.and_eq_true, beq_iff_eq] at hprefix
      rw [hchars, hprefix.1] at hhead
      simp [hc] at hhead
  rw [name?, hfind]
  rfl

theorem exists_next_toDigits (n : Nat) (hrest : EndsNumber rest) :
    ∃ c cs, Nat.toDigits 10 n = c :: cs ∧ isGap c = false ∧
      ∀ index, next index c (cs ++ rest) = (ofNatural n, (c :: cs).length) := by
  obtain ⟨c, cs, hdigits⟩ := List.exists_cons_of_ne_nil (Nat.toDigits_ne_nil (b := 10) (n := n))
  have hc : c.isDigit := isDigit_of_mem_toDigits (by rw [hdigits]; exact List.mem_cons_self)
  have hsymbol (d : Char) (hd : d.isDigit = false) : (c = d) = False := by
    rw [eq_iff_iff, iff_false]
    rintro rfl
    rw [hc] at hd
    cases hd
  have hnumber := number_toDigits (n := n) hrest
  rw [hdigits, List.cons_append] at hnumber
  refine ⟨c, cs, hdigits, ?_, fun index => ?_⟩
  · unfold isGap
    simp only [beq_eq_decide, hsymbol ' ' rfl, hsymbol '\t' rfl, hsymbol '\n' rfl,
      hsymbol '\r' rfl, decide_false, Bool.or_self]
  · unfold next
    simp only [hsymbol '[' rfl, hsymbol ']' rfl, hsymbol '\x7b' rfl, hsymbol '\x7d' rfl,
      hsymbol ',' rfl, hsymbol ':' rfl, hsymbol '"' rfl, if_false, name?_of_isDigit hc, hnumber,
      Option.none_or, Option.getD_some]

end Token

/-! ## Fields -/

/-- The fields of an object of whole numbers. -/
def wholeFields (es : List (String × Nat)) : List (String × Json) := es.map fun e => (e.1, .int e.2)

theorem indentedChars_int (depth n : Nat) : indentedChars depth (.int n) = Nat.toDigits 10 n := by
  show (toString (n : Int)).toList = _
  exact Nat.toList_repr

theorem wholeFields_ne_nil {es : List (String × Nat)} (hne : es ≠ []) : wholeFields es ≠ [] :=
  mt List.map_eq_nil_iff.mp hne

theorem indentedFields_singleton (depth : Nat) (e : String × Nat) :
    indentedFields depth (wholeFields [e]) =
      stringChars e.1 ++ ':' :: ' ' :: Nat.toDigits 10 e.2 := by
  rw [wholeFields, List.map_singleton, indentedFields, indentedChars_int]

theorem indentedFields_cons {depth : Nat} (e : String × Nat) {es : List (String × Nat)}
    (hne : es ≠ []) :
    indentedFields depth (wholeFields (e :: es)) = stringChars e.1 ++ ':' :: ' ' ::
      (Nat.toDigits 10 e.2 ++ ',' :: (margin depth ++ indentedFields depth (wholeFields es))) := by
  rw [wholeFields, List.map_cons, indentedFields, indentedChars_int]
  · simp [wholeFields]
  · exact wholeFields_ne_nil hne

theorem isGap_of_mem_margin {depth : Nat} : ∀ c ∈ margin depth, Token.isGap c := by
  refine List.forall_mem_cons.mpr ⟨by decide, fun c hc => ?_⟩
  rw [List.eq_of_mem_replicate hc]
  rfl

namespace Reader

variable {nesting : Nesting} {r r' : Reader} {index n depth : Nat} {k : String}
  {rest : List Char} {fields : List (String × Json)} {stack : List Frame}

theorem feed_symbol {c : Char} {t : Token} (hgap : Token.isGap c = false)
    (hnext : Token.next index c rest = (t, 1)) (hlast : t.isLast = false)
    (hstep : r.step nesting t index = .ok r') :
    r.feed nesting index (c :: rest) = r'.feed nesting (index + 1) rest := by
  show r.feed nesting index (c :: [] ++ rest) = r'.feed nesting (index + [c].length) rest
  exact feed_token hgap hnext hlast hstep

theorem feed_string (hstep : r.step nesting (.text k) index = .ok r') :
    r.feed nesting index (stringChars k ++ rest) =
      r'.feed nesting (index + (stringChars k).length) rest := by
  have hnext := Token.next_stringChars k index rest
  rw [← List.singleton_append, ← List.append_assoc] at hnext
  exact feed_token (by decide) hnext rfl hstep

/-- Whether a reader is where the name of a field stands, behind these fields. -/
def TakesName (r : Reader) (nesting : Nesting) (fields : List (String × Json))
    (stack : List Frame) : Prop :=
  ∀ k index, r.step nesting (.text k) index = .ok (.colon fields k stack)

theorem feed_name (hr : r.TakesName nesting fields stack) :
    r.feed nesting index (stringChars k ++ ':' :: ' ' :: rest) =
      (Reader.value (.field fields k :: stack)).feed nesting (index + (stringChars k).length + 2)
        rest := by
  have hgaps : ∀ c ∈ [' '], Token.isGap c := List.forall_mem_singleton.mpr rfl
  rw [feed_string (hr _ _), feed_symbol (by decide) rfl rfl rfl]
  exact feed_gaps hgaps

theorem feed_field (hr : r.TakesName nesting fields stack) (hrest : EndsNumber rest)
    (hn : IsReadable n) :
    ∃ i, r.feed nesting index (stringChars k ++ ':' :: ' ' :: (Nat.toDigits 10 n ++ rest)) =
      (Reader.afterField (Assoc.put k (.int n) fields) stack).feed nesting i rest := by
  obtain ⟨c, cs, hdigits, hgap, hnext⟩ := Token.exists_next_toDigits n hrest
  have htoken : Token.ofNatural n = .scalar (.int n) := if_pos hn
  rw [feed_name hr, hdigits, feed_token hgap (hnext _) (by rw [htoken]; rfl) (by rw [htoken]; rfl)]
  exact ⟨_, rfl⟩

theorem feed_field_error (hr : r.TakesName nesting fields stack) (hrest : EndsNumber rest)
    (hn : ¬ IsReadable n) :
    ∃ e, r.feed nesting index (stringChars k ++ ':' :: ' ' :: (Nat.toDigits 10 n ++ rest)) =
      .error (.tooManyDigits e) := by
  obtain ⟨c, cs, hdigits, hgap, hnext⟩ := Token.exists_next_toDigits n hrest
  have htoken : Token.ofNatural n = .badNumber ⟨(Nat.toDigits 10 n).length⟩ := if_neg hn
  rw [feed_name hr, hdigits, List.cons_append, feed_error hgap (hnext _) (by rw [htoken]; rfl)]
  exact ⟨_, rfl⟩

theorem feed_comma :
    (Reader.afterField fields stack).feed nesting index (',' :: (margin depth ++ rest)) =
      (Reader.key fields stack).feed nesting (index + 1 + (margin depth).length) rest := by
  rw [feed_symbol (by decide) rfl rfl rfl]
  exact feed_gaps isGap_of_mem_margin

theorem endsNumber_comma : EndsNumber (',' :: rest) := by
  rintro _ ⟨⟩
  exact .inl rfl

theorem feed_first {es : List (String × Nat)} (hne : es ≠ [])
    (hr : r.TakesName nesting fields stack) (hn : IsReadable n) :
    ∃ i, r.feed nesting index (indentedFields depth (wholeFields ((k, n) :: es)) ++ rest) =
      (Reader.key (Assoc.put k (.int n) fields) stack).feed nesting i
        (indentedFields depth (wholeFields es) ++ rest) := by
  rw [indentedFields_cons (k, n) hne]
  simp only [List.append_assoc, List.cons_append]
  obtain ⟨i, hfield⟩ := feed_field hr endsNumber_comma hn
  rw [hfield, feed_comma]
  exact ⟨_, rfl⟩

/-- Written fields, of which the numbers are read, are put one after the other. -/
theorem feed_fields {es : List (String × Nat)} (index depth : Nat) (hne : es ≠ [])
    (hr : r.TakesName nesting fields stack) (hrest : EndsNumber rest)
    (hes : ∀ e ∈ es, IsReadable e.2) :
    ∃ i, r.feed nesting index (indentedFields depth (wholeFields es) ++ rest) =
      (Reader.afterField
        ((wholeFields es).foldl (fun acc e => Assoc.put e.1 e.2 acc) fields) stack).feed nesting i
          rest := by
  -- The reader, the fields before it and the index differ from one field to the next, so they stay
  -- general.
  induction es generalizing r fields index with
  | nil => exact absurd rfl hne
  | cons e es ih =>
    obtain ⟨he, hes⟩ := List.forall_mem_cons.mp hes
    by_cases hnil : es = []
    · subst hnil
      rw [indentedFields_singleton, List.append_assoc, List.cons_append, List.cons_append]
      exact feed_field hr hrest he
    · obtain ⟨i, hfirst⟩ := feed_first hnil hr he
      rw [hfirst]
      exact ih i hnil (fun _ _ => rfl) hes

theorem feed_fields_error {es : List (String × Nat)} (index depth : Nat)
    (hr : r.TakesName nesting fields stack) (hrest : EndsNumber rest)
    (hes : ∃ e ∈ es, ¬ IsReadable e.2) :
    ∃ e, r.feed nesting index (indentedFields depth (wholeFields es) ++ rest) =
      .error (.tooManyDigits e) := by
  induction es generalizing r fields index with
  | nil =>
    obtain ⟨e, he, -⟩ := hes
    cases he
  | cons e es ih =>
    by_cases hnil : es = []
    · subst hnil
      obtain ⟨_, hmem, hlong⟩ := hes
      obtain rfl := List.mem_singleton.mp hmem
      rw [indentedFields_singleton, List.append_assoc, List.cons_append, List.cons_append]
      exact feed_field_error hr hrest hlong
    · by_cases he : IsReadable e.2
      · obtain ⟨i, hfirst⟩ := feed_first hnil hr he
        rw [hfirst]
        refine ih i (fun _ _ => rfl) ?_
        obtain ⟨f, hf, hlong⟩ := hes
        rcases List.mem_cons.mp hf with rfl | hf
        · exact absurd he hlong
        · exact ⟨f, hf, hlong⟩
      · rw [indentedFields_cons e hnil]
        simp only [List.append_assoc, List.cons_append]
        exact feed_field_error hr endsNumber_comma he

end Reader

/-! ## Objects -/

variable {nesting : Nesting} {es : List (String × Nat)}

theorem indentedChars_wholeFields (hne : es ≠ []) :
    indentedChars 0 (.object (wholeFields es)) = '\x7b' :: (margin 1 ++
      (indentedFields 1 (wholeFields es) ++ (margin 0 ++ ['\x7d']))) := by
  have hfields : (wholeFields es).isEmpty = false := by
    rw [List.isEmpty_eq_false_iff]
    exact wholeFields_ne_nil hne
  rw [indentedChars, hfields]
  simp

theorem read_eq_feed {c : Char} {cs : List Char} (hc : c ≠ Char.ofNat 0xFEFF) :
    read nesting (c :: cs) = match (Reader.value []).feed nesting 0 (c :: cs) with
      | .error stop => .error (.ofStop (c :: cs) stop)
      | .ok r => (r.finish (c :: cs).length).mapError (.ofStop (c :: cs)) := by
  rw [read, if_neg (by simpa using hc)]
  rfl

/-- An object may always be open. -/
theorem Reader.step_openObject (index : Nat) :
    (Reader.value []).step nesting .openObject index = .ok (.firstKey []) :=
  if_neg (Nat.not_le.mpr nesting.pos)

theorem endsNumber_margin (depth : Nat) (cs : List Char) : EndsNumber (margin depth ++ cs) := by
  rintro _ ⟨⟩
  exact .inr rfl

/-- A written object of whole numbers is read as it was written, if its numbers can be read. -/
theorem read_indented (hd : (Assoc.keys es).Nodup) (hes : ∀ e ∈ es, IsReadable e.2) :
    read nesting (indentedChars 0 (.object (wholeFields es))) = .ok (.object (wholeFields es)) := by
  by_cases hne : es = []
  · subst hne
    have hempty : indentedChars 0 (.object (wholeFields [])) = ['\x7b', '\x7d'] := by rfl
    rw [hempty, read_eq_feed (by decide),
      Reader.feed_symbol (by decide) rfl rfl (Reader.step_openObject _),
      Reader.feed_symbol (by decide) rfl rfl rfl, Reader.feed_nil]
    rfl
  · have hname : (Reader.firstKey []).TakesName nesting [] [] := fun _ _ => rfl
    have hkeys : (Assoc.keys ([] ++ wholeFields es)).Nodup := by
      rw [List.nil_append, wholeFields, Assoc.keys, List.map_map]
      exact hd
    obtain ⟨i, hfields⟩ := Reader.feed_fields (0 + 1 + (margin 1).length) 1 hne hname
      (endsNumber_margin 0 ['\x7d']) hes
    rw [indentedChars_wholeFields hne, read_eq_feed (by decide),
      Reader.feed_symbol (by decide) rfl rfl (Reader.step_openObject _),
      Reader.feed_gaps isGap_of_mem_margin, hfields, Assoc.foldl_put _ _ hkeys, List.nil_append,
      Reader.feed_gaps isGap_of_mem_margin, Reader.feed_symbol (by decide) rfl rfl rfl,
      Reader.feed_nil]
    rfl

theorem read_indented_error (hes : ∃ e ∈ es, ¬ IsReadable e.2) :
    ∃ e, read nesting (indentedChars 0 (.object (wholeFields es))) = .error (.tooManyDigits e) := by
  have hne : es ≠ [] := by
    rintro rfl
    obtain ⟨e, he, -⟩ := hes
    cases he
  have hname : (Reader.firstKey []).TakesName nesting [] [] := fun _ _ => rfl
  obtain ⟨e, hfields⟩ := Reader.feed_fields_error (0 + 1 + (margin 1).length) 1 hname
    (endsNumber_margin 0 ['\x7d']) hes
  rw [indentedChars_wholeFields hne, read_eq_feed (by decide),
    Reader.feed_symbol (by decide) rfl rfl (Reader.step_openObject _),
    Reader.feed_gaps isGap_of_mem_margin, hfields]
  exact ⟨e, rfl⟩

end Breadboard.Json
