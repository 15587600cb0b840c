import Breadboard.Files.Documents
import Mathlib.Data.List.Basic

/-!
# Fields that are read

No object that is read has two fields of one name, at any depth, for a field that is given again
takes the place of the earlier one. The reader keeps this of all lists and objects that are still
open, token by token (`Reader.step_isTidy`).
-/

namespace Breadboard

namespace Json

/-- A value in which no object has two fields of one name. -/
inductive IsTidy : Json → Prop where
  | null : IsTidy .null
  | bool (b : Bool) : IsTidy (.bool b)
  | int (n : Int) : IsTidy (.int n)
  | float (f : Float) : IsTidy (.float f)
  | text (s : String) : IsTidy (.text s)
  | list {items : List Json} : (∀ j ∈ items, IsTidy j) → IsTidy (.list items)
  | object {fields : List (String × Json)} : (Assoc.keys fields).Nodup →
      (∀ f ∈ fields, IsTidy f.2) → IsTidy (.object fields)

theorem isTidy_emptyObject : (object []).IsTidy := .object List.nodup_nil (List.forall_mem_nil _)

theorem nodup_keys_of_isTidy {fields : List (String × Json)} (h : (object fields).IsTidy) :
    (Assoc.keys fields).Nodup := by
  cases h with
  | object hdistinct _ => exact hdistinct

theorem isTidy_put {fields : List (String × Json)} (h : (object fields).IsTidy) {j : Json}
    (hj : j.IsTidy) (name : String) : (object (Assoc.put name j fields)).IsTidy := by
  cases h with
  | object hdistinct hfields =>
    refine .object (Assoc.nodup_keys_put hdistinct name j) fun f hf => ?_
    rcases Assoc.mem_put hf with rfl | hmem
    · exact hj
    · exact hfields f hmem

/-! ## Tokens -/

namespace Token

/-- Whether the value of a token is tidy, if it has one. -/
def IsTidy (t : Token) : Prop := ∀ j, t = .scalar j → j.IsTidy

theorem isTidy_of_name? {cs : List Char} {t : Token × Nat} (h : name? cs = some t) :
    t.1.IsTidy := by
  obtain ⟨e, he, rfl⟩ := Option.map_eq_some_iff.mp h
  rintro j ⟨⟩
  have hmem := List.mem_of_find?_eq_some he
  simp only [names, List.mem_cons, List.not_mem_nil, or_false] at hmem
  rcases hmem with rfl | rfl | rfl | rfl | rfl | rfl
  · exact .null
  · exact .bool _
  · exact .bool _
  · exact .float _
  · exact .float _
  · exact .float _

theorem isTidy_of_number {cs : List Char} {t : Token × Nat} (h : number cs = some t) :
    t.1.IsTidy := by
  unfold number at h
  lift_lets at h
  extract_lets at h
  split at h
  · cases h
  · split at h
    · split at h
      · cases h
        nofun
      · cases h
        rintro j ⟨⟩
        exact .int _
    · obtain ⟨d, -, rfl⟩ := Option.map_eq_some_iff.mp h
      rintro j ⟨⟩
      exact .float _

theorem isTidy_next (index : Nat) (c : Char) (rest : List Char) :
    (next index c rest).1.IsTidy := by
  unfold next
  split_ifs
  · nofun
  · nofun
  · nofun
  · nofun
  · nofun
  · nofun
  · split <;> nofun
  · cases hvalue : (name? (c :: rest)).or (number (c :: rest)) with
    | none => nofun
    | some t =>
      rcases Option.or_eq_some_iff.mp hvalue with hname | ⟨-, hnumber⟩
      · exact isTidy_of_name? hname
      · exact isTidy_of_number hnumber

theorem isTidy_of_next {index n : Nat} {c : Char} {cs : List Char} {t : Token}
    (h : next index c cs = (t, n)) : t.IsTidy := by
  have ht := isTidy_next index c cs
  rwa [h] at ht

/-- The tokens read so far stay general, since each token is put in front of them. -/
theorem isTidy_scan (index : Nat) (done : List (Token × Nat)) (cs : List Char)
    (hdone : ∀ t ∈ done, t.1.IsTidy) : ∀ t ∈ scan index done cs, t.1.IsTidy := by
  fun_induction scan index done cs with
  | case1 => exact hdone
  | case2 index done c cs hgap ih => exact ih hdone
  | case3 index done c cs hgap t n hnext hlast =>
    exact List.forall_mem_cons.mpr ⟨isTidy_of_next hnext, hdone⟩
  | case4 index done c cs hgap t n hnext hlast ih =>
    exact ih (List.forall_mem_cons.mpr ⟨isTidy_of_next hnext, hdone⟩)

end Token

/-! ## The reader -/

/-- Whether what is read so far of an open list or object is tidy. -/
inductive Frame.IsTidy : Frame → Prop where
  | item {items : List Json} : (∀ j ∈ items, j.IsTidy) → IsTidy (.item items)
  | field {fields : List (String × Json)} {name : String} :
      (object fields).IsTidy → IsTidy (.field fields name)

/-- Whether all that is read so far is tidy. -/
inductive Reader.IsTidy : Reader → Prop where
  | value {stack : List Frame} : (∀ f ∈ stack, f.IsTidy) → IsTidy (.value stack)
  | firstItem {stack : List Frame} : (∀ f ∈ stack, f.IsTidy) → IsTidy (.firstItem stack)
  | firstKey {stack : List Frame} : (∀ f ∈ stack, f.IsTidy) → IsTidy (.firstKey stack)
  | key {fields : List (String × Json)} {stack : List Frame} :
      (object fields).IsTidy → (∀ f ∈ stack, f.IsTidy) → IsTidy (.key fields stack)
  | colon {fields : List (String × Json)} {name : String} {stack : List Frame} :
      (object fields).IsTidy → (∀ f ∈ stack, f.IsTidy) → IsTidy (.colon fields name stack)
  | afterItem {items : List Json} {stack : List Frame} :
      (∀ j ∈ items, j.IsTidy) → (∀ f ∈ stack, f.IsTidy) → IsTidy (.afterItem items stack)
  | afterField {fields : List (String × Json)} {stack : List Frame} :
      (object fields).IsTidy → (∀ f ∈ stack, f.IsTidy) → IsTidy (.afterField fields stack)
  | done {j : Json} : j.IsTidy → IsTidy (.done j)

namespace Reader

variable {n : Nesting} {r r' : Reader} {t : Token} {index : Nat} {stack : List Frame}
  {fields : List (String × Json)} {j : Json}

theorem isTidy_give (hj : j.IsTidy) (hstack : ∀ f ∈ stack, f.IsTidy) :
    (give j stack).IsTidy := by
  cases stack with
  | nil => exact .done hj
  | cons f stack =>
    obtain ⟨hframe, hrest⟩ := List.forall_mem_cons.mp hstack
    cases hframe with
    | item hitems => exact .afterItem (List.forall_mem_cons.mpr ⟨hj, hitems⟩) hrest
    | field hfields => exact .afterField (isTidy_put hfields hj _) hrest

theorem opened_isTidy (hstack : ∀ f ∈ stack, f.IsTidy) {container : Container}
    (h : opened n stack container = .ok r') : r'.IsTidy := by
  unfold opened at h
  split at h
  · cases h
  · cases container with
    | list => cases h; exact .firstItem hstack
    | object => cases h; exact .firstKey hstack

theorem start_isTidy (hstack : ∀ f ∈ stack, f.IsTidy) (ht : t.IsTidy)
    (h : start n stack t index = .ok r') : r'.IsTidy := by
  cases t with
  | openList => exact opened_isTidy hstack h
  | openObject => exact opened_isTidy hstack h
  | text s => cases h; exact isTidy_give (.text s) hstack
  | scalar j => cases h; exact isTidy_give (ht j rfl) hstack
  | _ => cases h

theorem named_isTidy (hfields : (object fields).IsTidy) (hstack : ∀ f ∈ stack, f.IsTidy)
    (h : named fields stack t index = .ok r') : r'.IsTidy := by
  cases t with
  | text s => cases h; exact .colon hfields hstack
  | _ => cases h

/-- A token that is taken keeps all tidy. -/
theorem step_isTidy (hr : r.IsTidy) (ht : t.IsTidy) (h : r.step n t index = .ok r') :
    r'.IsTidy := by
  cases hr with
  | value hstack => exact start_isTidy hstack ht h
  | firstItem hstack =>
    unfold step at h
    dsimp only at h
    split at h
    · cases h
      exact isTidy_give (.list (List.forall_mem_nil _)) hstack
    · exact start_isTidy (List.forall_mem_cons.mpr ⟨.item (List.forall_mem_nil _), hstack⟩) ht h
  | firstKey hstack =>
    unfold step at h
    dsimp only at h
    split at h
    · cases h
      exact isTidy_give isTidy_emptyObject hstack
    · exact named_isTidy isTidy_emptyObject hstack h
  | key hfields hstack => exact named_isTidy hfields hstack h
  | colon hfields hstack =>
    unfold step at h
    dsimp only at h
    split at h
    · cases h
      exact .value (List.forall_mem_cons.mpr ⟨.field hfields, hstack⟩)
    · cases h
  | afterItem hitems hstack =>
    unfold step at h
    dsimp only at h
    split at h
    · cases h
      exact .value (List.forall_mem_cons.mpr ⟨.item hitems, hstack⟩)
    · cases h
      exact isTidy_give (.list fun j hj => hitems j (List.mem_reverse.mp hj)) hstack
    · cases h
  | afterField hfields hstack =>
    unfold step at h
    dsimp only at h
    split at h
    · cases h
      exact .key hfields hstack
    · cases h
      exact isTidy_give hfields hstack
    · cases h
  | done hj => cases h

theorem run_isTidy {ts : List (Token × Nat)} (hr : r.IsTidy) (hts : ∀ t ∈ ts, t.1.IsTidy)
    (h : r.run n ts = .ok r') : r'.IsTidy := by
  induction ts generalizing r with
  | nil =>
    cases h
    exact hr
  | cons t ts ih =>
    obtain ⟨ht, hts⟩ := List.forall_mem_cons.mp hts
    unfold run at h
    split at h
    · cases h
    · next next hstep => exact ih (step_isTidy hr ht hstep) hts h

theorem finish_isTidy (hr : r.IsTidy) (h : r.finish index = .ok j) : j.IsTidy := by
  cases hr with
  | done hj =>
    cases h
    exact hj
  | _ => cases h

end Reader

/-- Every value that is read is tidy. -/
theorem isTidy_of_read {n : Nesting} {cs : List Char} {j : Json} (h : read n cs = .ok j) :
    j.IsTidy := by
  unfold read at h
  split at h
  · cases h
  · split at h
    · cases h
    · next r hrun =>
      have htokens : ∀ t ∈ (Token.scan 0 [] cs).reverse, t.1.IsTidy := fun t ht =>
        Token.isTidy_scan 0 [] cs (List.forall_mem_nil _) t (List.mem_reverse.mp ht)
      have htidy := Reader.run_isTidy (.value (List.forall_mem_nil _)) htokens hrun
      cases hfinish : r.finish cs.length with
      | error stop =>
        rw [hfinish] at h
        cases h
      | ok j' =>
        rw [hfinish] at h
        cases h
        exact Reader.finish_isTidy htidy hfinish

end Json

/-! ## Files -/

namespace FileTree

variable {t : FileTree} {n : Json.Nesting} {p : Path} {j : Json}

theorem isTidy_of_readJson (h : t.readJson n p = .ok j) : j.IsTidy := by
  unfold readJson at h
  cases htext : t.readText p with
  | error e =>
    rw [htext] at h
    cases h
  | ok text =>
    simp only [htext, bind, Except.bind] at h
    split at h
    · cases h
    · next j' hread =>
      cases h
      exact Json.isTidy_of_read hread

theorem readJson_of_toOption (h : (t.readJson n p).toOption = some j) : t.readJson n p = .ok j := by
  cases hread : t.readJson n p with
  | error e =>
    rw [hread] at h
    cases h
  | ok j' =>
    rw [hread] at h
    cases h
    rfl

end FileTree

end Breadboard
