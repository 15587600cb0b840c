import Breadboard.Csv

/-!
# Reading records

A reader of comma-separated values: fields are divided by commas, a field in quotes may hold any
character and holds a quote as two, and a record ends with a carriage return and a line feed, which
the last record may lack. Whatever records are written, it reads them back.
-/

namespace Breadboard.Csv

/-! ## The reader -/

/-- Where a reader stands: at the start of a record or of a further field, in a field without
quotes, between quotes, behind a quote that closes a field or begins a double one, or behind the
carriage return that ends a record. -/
inductive Place where
  | record
  | field
  | plain
  | quoted
  | quote
  | carriage
  deriving DecidableEq, Repr

/-- What has been read: the records, the fields of the record that is open, and the field that is
open. -/
structure Reading where
  records : List (List (List Char))
  fields : List (List Char)
  field : List Char
  place : Place

namespace Reading

/-- The reading before any character. -/
def start : Reading := ⟨[], [], [], .record⟩

/-- One more character in the field. -/
def add (r : Reading) (c : Char) (place : Place) : Reading :=
  { r with field := r.field ++ [c], place }

/-- The end of the field. -/
def endField (r : Reading) (place : Place) : Reading :=
  { r with fields := r.fields ++ [r.field], field := [], place }

/-- One character; nothing if no record has it there. A line that is empty is a record without
fields. -/
def step (r : Reading) (c : Char) : Option Reading :=
  match r.place with
  | .quoted => some (if c = '"' then { r with place := .quote } else r.add c .quoted)
  | .carriage => if c = '\n' then some ⟨r.records ++ [r.fields], [], [], .record⟩ else none
  | place =>
    if c = ',' then some (r.endField .field)
    else if c = '\r' then
      some (if place = .record then { r with place := .carriage } else r.endField .carriage)
    else if c = '\n' then none
    else if c = '"' then
      match place with
      | .plain => none
      | .quote => some (r.add c .quoted)
      | _ => some { r with place := .quoted }
    else if place = .quote then none
    else some (r.add c .plain)

/-- The records at the end of the text. -/
def finish (r : Reading) : Option (List (List (List Char))) :=
  match r.place with
  | .record => some r.records
  | .quoted | .carriage => none
  | _ => some (r.records ++ [r.fields ++ [r.field]])

end Reading

open Reading

/-- The records of a text. -/
def read (s : String) : Option (List (List String)) :=
  ((s.toList.foldlM step start).bind finish).map (List.map (List.map String.ofList))

/-! ## Reading what is written -/

variable {records : List (List (List Char))} {fields : List (List Char)} {place : Place}

theorem foldlM_doubleQuotes (cs field : List Char) :
    (doubleQuotes cs).foldlM step ⟨records, fields, field, .quoted⟩ =
      some ⟨records, fields, field ++ cs, .quoted⟩ := by
  unfold doubleQuotes
  induction cs generalizing field with
  | nil => simp
  | cons c cs ih =>
    have hchar : (if c = '"' then ['"', '"'] else [c]).foldlM step
        ⟨records, fields, field, .quoted⟩ = some ⟨records, fields, field ++ [c], .quoted⟩ := by
      by_cases hc : c = '"' <;> simp [hc, step, add]
    rw [List.flatMap_cons, List.foldlM_append, hchar, Option.bind_eq_bind, Option.bind_some, ih,
      List.append_assoc, List.singleton_append]

theorem needsQuotes_cons_eq_false {c : Char} {cs : List Char}
    (h : needsQuotes (c :: cs) = false) :
    (c ≠ ',' ∧ c ≠ '"' ∧ c ≠ '\r' ∧ c ≠ '\n') ∧ needsQuotes cs = false := by
  unfold needsQuotes at h ⊢
  rw [List.any_cons, Bool.or_eq_false_iff] at h
  refine h.imp_left fun hc => ?_
  simpa only [Bool.or_eq_false_iff, beq_eq_false_iff_ne, and_assoc] using hc

/-- Outside quotes a character that needs none stands for itself. -/
theorem foldlM_plain {cs : List Char} (h : needsQuotes cs = false) (field : List Char) :
    cs.foldlM step ⟨records, fields, field, .plain⟩ =
      some ⟨records, fields, field ++ cs, .plain⟩ := by
  induction cs generalizing field with
  | nil => simp
  | cons c cs ih =>
    obtain ⟨⟨hcomma, hquote, hreturn, hfeed⟩, hcs⟩ := needsQuotes_cons_eq_false h
    have hstep : step ⟨records, fields, field, .plain⟩ c =
        some ⟨records, fields, field ++ [c], .plain⟩ := by
      simp [step, add, hcomma, hquote, hreturn, hfeed]
    rw [List.foldlM_cons, hstep, Option.bind_eq_bind, Option.bind_some, ih hcs,
      List.append_assoc, List.singleton_append]

/-- A place at which a field may end. -/
def EndsField (place : Place) : Prop := place = .field ∨ place = .plain ∨ place = .quote

/-- A field is read up to a place where it may end. Only an empty one leaves the reader where it
stood. -/
theorem exists_foldlM_fieldChars (records : List (List (List Char))) (fields : List (List Char))
    (cs : List Char) (hplace : place = .record ∨ place = .field) :
    ∃ last, (EndsField last ∨ cs = [] ∧ last = place) ∧
      (fieldChars cs).foldlM step ⟨records, fields, [], place⟩ =
        some ⟨records, fields, cs, last⟩ := by
  unfold fieldChars
  cases hquotes : needsQuotes cs with
  | true =>
    have hopen : step ⟨records, fields, [], place⟩ '"' =
        some ⟨records, fields, [], .quoted⟩ := by
      rcases hplace with rfl | rfl <;> rfl
    refine ⟨.quote, .inl (.inr (.inr rfl)), ?_⟩
    rw [if_pos rfl, List.cons_append, List.foldlM_cons, hopen, Option.bind_eq_bind,
      Option.bind_some, List.foldlM_append, foldlM_doubleQuotes]
    rfl
  | false =>
    rw [if_neg Bool.false_ne_true]
    cases cs with
    | nil => exact ⟨place, .inr ⟨rfl, rfl⟩, rfl⟩
    | cons c cs =>
      obtain ⟨⟨hcomma, hquote, hreturn, hfeed⟩, hcs⟩ := needsQuotes_cons_eq_false hquotes
      have hstep : step ⟨records, fields, [], place⟩ c = some ⟨records, fields, [c], .plain⟩ := by
        rcases hplace with rfl | rfl <;> simp [step, add, hcomma, hquote, hreturn, hfeed]
      refine ⟨.plain, .inl (.inr (.inl rfl)), ?_⟩
      rw [List.foldlM_cons, hstep, Option.bind_eq_bind, Option.bind_some, foldlM_plain hcs]
      rfl

theorem step_comma {field : List Char} (h : EndsField place ∨ place = .record) :
    step ⟨records, fields, field, place⟩ ',' = some ⟨records, fields ++ [field], [], .field⟩ := by
  rcases h with (rfl | rfl | rfl) | rfl <;> rfl

theorem foldlM_recordEnd {field : List Char} (h : EndsField place) :
    ['\r', '\n'].foldlM step ⟨records, fields, field, place⟩ =
      some ⟨records ++ [fields ++ [field]], [], [], .record⟩ := by
  rcases h with rfl | rfl | rfl <;> rfl

/-- The fields of a record, the first of which may stand behind others. A lone empty field at the
start of a record would be taken for no field at all. -/
theorem foldlM_fields {more : List (List Char)} (hmore : more ≠ [])
    (hplace : place = .field ∨ place = .record ∧ more ≠ [[]]) :
    (List.intercalate [','] (more.map fieldChars) ++ ['\r', '\n']).foldlM step
        ⟨records, fields, [], place⟩ = some ⟨records ++ [fields ++ more], [], [], .record⟩ := by
  induction more generalizing fields place with
  | nil => exact absurd rfl hmore
  | cons cs more ih =>
    obtain ⟨last, hlast, hfield⟩ := exists_foldlM_fieldChars records fields cs
      (hplace.symm.imp (·.1) id)
    cases more with
    | nil =>
      have hends : EndsField last := by
        rcases hlast with hends | ⟨rfl, rfl⟩
        · exact hends
        · exact hplace.elim .inl fun h => absurd rfl h.2
      rw [List.map_singleton, List.intercalate_singleton, List.foldlM_append, hfield,
        Option.bind_eq_bind, Option.bind_some, foldlM_recordEnd hends]
    | cons ds more =>
      have hcomma : EndsField last ∨ last = .record := by
        rcases hlast with hends | ⟨-, rfl⟩
        · exact .inl hends
        · exact hplace.imp .inl (·.1)
      rw [List.map_cons, List.map_cons, List.intercalate_cons_cons, List.append_assoc,
        List.append_assoc, List.foldlM_append, hfield, Option.bind_eq_bind, Option.bind_some,
        List.singleton_append, List.foldlM_cons, step_comma hcomma, Option.bind_eq_bind,
        Option.bind_some, ← List.map_cons, ih (List.cons_ne_nil _ _) (.inl rfl), List.append_assoc]
      rfl

theorem foldlM_recordChars (record : List (List Char)) :
    (recordChars record).foldlM step ⟨records, [], [], .record⟩ =
      some ⟨records ++ [record], [], [], .record⟩ := by
  unfold recordChars
  split
  · rfl
  · next hlone =>
    cases record with
    | nil => rfl
    | cons cs more => exact foldlM_fields (List.cons_ne_nil _ _) (.inr ⟨rfl, hlone⟩)

theorem foldlM_flatMap_recordChars (more : List (List (List Char))) :
    (more.flatMap recordChars).foldlM step ⟨records, [], [], .record⟩ =
      some ⟨records ++ more, [], [], .record⟩ := by
  induction more generalizing records with
  | nil => simp
  | cons record more ih =>
    rw [List.flatMap_cons, List.foldlM_append, foldlM_recordChars, Option.bind_eq_bind,
      Option.bind_some, ih, List.append_assoc, List.singleton_append]

/-- Whatever records are written are read back, with every field as it was. -/
theorem read_render (records : List (List String)) : read (render records) = some records := by
  have hfields (record : List String) : (record.map String.toList).map String.ofList = record := by
    rw [List.map_map]
    exact List.map_id'' (fun _ => String.ofList_toList) record
  have hrecords : (records.flatMap fun r => recordChars (r.map String.toList)) =
      (records.map (List.map String.toList)).flatMap recordChars := by
    rw [List.flatMap_map]
  unfold read render start
  rw [String.toList_ofList, hrecords, foldlM_flatMap_recordChars, List.nil_append,
    Option.bind_some]
  refine congrArg some ?_
  rw [List.map_map]
  exact List.map_id'' hfields records

end Breadboard.Csv
