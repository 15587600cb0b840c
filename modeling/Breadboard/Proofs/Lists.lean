import Mathlib.Data.List.Basic
import Mathlib.Data.List.Forall2

/-!
# Lists

Reading every member of a list, where a member may have no reading or be an error, folds that end at
an error, lists with their repetitions left out, and sorting by a key.
-/

namespace Breadboard

/-! ## Reading every member -/

theorem mapM_eq_some_iff {α β : Type} {f : α → Option β} {l : List α} {r : List β} :
    l.mapM f = some r ↔ l.map f = r.map some := by
  induction l generalizing r with
  | nil => cases r <;> simp
  | cons a l ih =>
    simp only [List.mapM_cons, Option.pure_def, Option.bind_eq_bind, Option.bind_eq_some_iff,
      List.map_cons]
    constructor
    · rintro ⟨b, hb, bs, hbs, hr⟩
      cases hr
      rw [List.map_cons, hb, ih.mp hbs]
    · intro h
      cases r with
      | nil => cases h
      | cons b bs =>
        rw [List.map_cons, List.cons.injEq] at h
        exact ⟨b, h.1, bs, ih.mpr h.2, rfl⟩

theorem mem_iff_of_mapM_eq_some {α β : Type} {f : α → Option β} {l : List α} {r : List β}
    (h : l.mapM f = some r) {b : β} : b ∈ r ↔ ∃ a ∈ l, f a = some b := by
  have hmem : some b ∈ r.map some ↔ some b ∈ l.map f := by rw [mapM_eq_some_iff.mp h]
  simpa using hmem

theorem exists_mem_of_mapM_eq_some {α β : Type} {f : α → Option β} {l : List α} {r : List β}
    (h : l.mapM f = some r) {a : α} (ha : a ∈ l) : ∃ b ∈ r, f a = some b := by
  have hmem : f a ∈ r.map some := by
    rw [← mapM_eq_some_iff.mp h]
    exact List.mem_map_of_mem ha
  obtain ⟨b, hb, hab⟩ := List.mem_map.mp hmem
  exact ⟨b, hb, hab.symm⟩

theorem mapM_some_mono {α β : Type} {f g : α → Option β} (hfg : ∀ a b, f a = some b → g a = some b)
    {l : List α} {r : List β} (h : l.mapM f = some r) : l.mapM g = some r := by
  induction l generalizing r with
  | nil => exact h
  | cons a l ih =>
    simp only [List.mapM_cons, Option.pure_def, Option.bind_eq_bind, Option.bind_eq_some_iff] at h ⊢
    obtain ⟨b, hb, bs, hbs, hr⟩ := h
    exact ⟨b, hfg a b hb, bs, ih hbs, hr⟩

theorem mapM_map_option {α β γ : Type} (f : α → Option β) (σ : β → γ) (l : List α) :
    l.mapM (fun a => (f a).map σ) = (l.mapM f).map (List.map σ) := by
  induction l with
  | nil => rfl
  | cons a l ih =>
    rw [List.mapM_cons, List.mapM_cons, ih]
    cases f a with
    | none => rfl
    | some b => cases l.mapM f <;> rfl

theorem map_eq_self_iff {α : Type} {l : List α} {f : α → α} : l.map f = l ↔ ∀ a ∈ l, f a = a := by
  have h := List.map_inj_left (l := l) (f := f) (g := id)
  rwa [List.map_id] at h

theorem eq_false_of_mem_splitOnP {α : Type} {p : α → Bool} {l part : List α}
    (h : part ∈ l.splitOnP p) : ∀ a ∈ part, p a = false := by
  induction l generalizing part with
  | nil =>
    rw [List.splitOnP_nil, List.mem_singleton] at h
    exact fun a ha => nomatch h ▸ ha
  | cons b l ih =>
    rw [List.splitOnP_cons_eq_if_modifyHead] at h
    split at h
    · rcases List.mem_cons.mp h with rfl | h
      · exact fun a ha => nomatch ha
      · exact ih h
    · next hb =>
      obtain ⟨first, rest, hparts⟩ := List.exists_cons_of_ne_nil (List.splitOnP_ne_nil p l)
      rw [hparts] at h ih
      rcases List.mem_cons.mp h with rfl | h
      · exact List.forall_mem_cons.mpr ⟨by simpa using hb, ih List.mem_cons_self⟩
      · exact ih (List.mem_cons_of_mem _ h)

/-! ## Reading that stops at the first error -/

section Errors

variable {ε α β : Type} {l : List α} {e : ε}

theorem exists_of_bind_ok {x : Except ε α} {f : α → Except ε β} {b : β}
    (h : x >>= f = .ok b) : ∃ a, x = .ok a ∧ f a = .ok b := by
  cases x with
  | error e => cases h
  | ok a => exact ⟨a, rfl, h⟩

theorem bind_eq_error_iff {x : Except ε α} {f : α → Except ε β} :
    x >>= f = .error e ↔ x = .error e ∨ ∃ a, x = .ok a ∧ f a = .error e := by
  cases x with
  | error e' => simp [bind, Except.bind]
  | ok a => simp [bind, Except.bind]

/-- A whole list is read exactly if its members are, and gives the list of what they give. -/
theorem mapM_eq_ok_iff {f : α → Except ε β} {r : List β} :
    l.mapM f = .ok r ↔ List.Forall₂ (fun a b => f a = .ok b) l r := by
  induction l generalizing r with
  | nil => cases r <;> simp [pure, Except.pure]
  | cons a l ih =>
    rw [List.mapM_cons]
    cases ha : f a with
    | error e => cases r <;> simp [bind, Except.bind, ha]
    | ok b =>
      cases hl : l.mapM f with
      | error e => cases r <;> simp [bind, Except.bind, ← ih, ha, hl]
      | ok bs => cases r <;> simp [bind, Except.bind, pure, Except.pure, ← ih, ha, hl]

theorem exists_mem_of_forall₂ {R : α → β → Prop} {r : List β} (h : List.Forall₂ R l r) {a : α}
    (ha : a ∈ l) : ∃ b ∈ r, R a b := by
  induction h with
  | nil => cases ha
  | cons hfirst _ ih =>
    rcases List.mem_cons.mp ha with rfl | ha
    · exact ⟨_, List.mem_cons_self, hfirst⟩
    · obtain ⟨b, hb, hab⟩ := ih ha
      exact ⟨b, List.mem_cons_of_mem _ hb, hab⟩

theorem exists_of_mapM_eq_error {f : α → Except ε β} (h : l.mapM f = .error e) :
    ∃ a ∈ l, f a = .error e := by
  induction l with
  | nil => cases h
  | cons a l ih =>
    rw [List.mapM_cons] at h
    cases ha : f a with
    | error e' =>
      rw [ha] at h
      cases h
      exact ⟨a, List.mem_cons_self, ha⟩
    | ok b =>
      cases hl : l.mapM f with
      | error e' =>
        rw [ha, hl] at h
        cases h
        obtain ⟨a', hmem, ha'⟩ := ih hl
        exact ⟨a', List.mem_cons_of_mem a hmem, ha'⟩
      | ok bs =>
        rw [ha, hl] at h
        cases h

theorem exists_mapM_eq_ok {f : α → Except ε β} (h : ∀ a ∈ l, ∃ b, f a = .ok b) :
    ∃ r, l.mapM f = .ok r := by
  cases hl : l.mapM f with
  | ok r => exact ⟨r, rfl⟩
  | error e =>
    obtain ⟨a, ha, herror⟩ := exists_of_mapM_eq_error hl
    obtain ⟨b, hb⟩ := h a ha
    rw [hb] at herror
    cases herror

theorem forM_eq_ok_iff {f : α → Except ε Unit} : l.forM f = .ok () ↔ ∀ a ∈ l, f a = .ok () := by
  induction l with
  | nil => simp [List.forM, pure, Except.pure]
  | cons a l ih =>
    show (f a >>= fun _ => l.forM f) = .ok () ↔ _
    rw [List.forall_mem_cons, ← ih]
    cases ha : f a <;> simp [bind, Except.bind]

/-- The error of a check of every member is that of a member. -/
theorem exists_of_forM_eq_error {f : α → Except ε Unit} (h : l.forM f = .error e) :
    ∃ a ∈ l, f a = .error e := by
  induction l with
  | nil => cases h
  | cons a l ih =>
    change (f a >>= fun _ => l.forM f) = .error e at h
    cases ha : f a with
    | error e' =>
      rw [ha] at h
      cases h
      exact ⟨a, List.mem_cons_self, ha⟩
    | ok u =>
      rw [ha] at h
      obtain ⟨a', hmem, ha'⟩ := ih h
      exact ⟨a', List.mem_cons_of_mem a hmem, ha'⟩

end Errors

/-! ## Leaving out repetitions -/

theorem nodup_eraseDups {α : Type} [BEq α] [LawfulBEq α] :
    ∀ l : List α, l.eraseDups.Nodup
  | [] => List.nodup_nil
  | a :: l => by
    have hlen := List.length_filter_le (fun b => !b == a) l
    rw [List.eraseDups_cons, List.nodup_cons]
    refine ⟨?_, nodup_eraseDups _⟩
    rw [List.mem_eraseDups, List.mem_filter]
    rintro ⟨-, ha⟩
    simp at ha
termination_by l => l.length

theorem eraseDups_replicate {α : Type} [BEq α] [LawfulBEq α] (n : Nat) (a : α) :
    (List.replicate n a).eraseDups = if n = 0 then [] else [a] := by
  cases n with
  | zero => rfl
  | succ n =>
    rw [List.replicate_succ, List.eraseDups_cons, List.filter_eq_nil_iff.mpr]
    · rfl
    · intro b hb
      simp [List.eq_of_mem_replicate hb]

theorem eraseDups_of_nodup {α : Type} [BEq α] [LawfulBEq α] {l : List α} (h : l.Nodup) :
    l.eraseDups = l := by
  induction l with
  | nil => rfl
  | cons a l ih =>
    obtain ⟨ha, hl⟩ := List.nodup_cons.mp h
    have hkeep : l.filter (fun b => !b == a) = l := by
      rw [List.filter_eq_self]
      intro b hb
      have hne : b ≠ a := by rintro rfl; exact ha hb
      simpa using hne
    rw [List.eraseDups_cons, hkeep, ih hl]

theorem perm_eraseDups {α : Type} [BEq α] [LawfulBEq α] {l m : List α} (h : l.Perm m) :
    l.eraseDups.Perm m.eraseDups := by
  rw [List.perm_ext_iff_of_nodup (nodup_eraseDups l) (nodup_eraseDups m)]
  intro a
  rw [List.mem_eraseDups, List.mem_eraseDups]
  exact h.mem_iff

/-- What is there already adds nothing. -/
theorem eraseDups_append_of_subset {α : Type} [BEq α] [LawfulBEq α] {l m : List α} (h : l.Nodup)
    (hs : m ⊆ l) : (l ++ m).eraseDups = l := by
  rw [List.eraseDups_append, eraseDups_of_nodup h, List.removeAll, List.filter_eq_nil_iff.mpr]
  · exact List.append_nil l
  · intro a ha
    simpa using hs ha

/-! ## Sorting by a key -/

section Sorting

variable {α : Type} {key : α → Int} {l : List α}

theorem pairwise_mergeSort_key (key : α → Int) (l : List α) :
    (l.mergeSort fun a b => key a ≤ key b).Pairwise fun a b => key a ≤ key b := by
  have h : (l.mergeSort fun a b => key a ≤ key b).Pairwise
      fun a b => decide (key a ≤ key b) = true := by
    apply List.pairwise_mergeSort
    · intro a b c hab hbc
      simp only [decide_eq_true_eq] at hab hbc ⊢
      omega
    · intro a b
      simp only [Bool.or_eq_true, decide_eq_true_eq]
      omega
  exact h.imp of_decide_eq_true

/-- Sorting by a key keeps the order of those that have one key. -/
theorem filter_mergeSort_key (key : α → Int) (l : List α) (i : Int) :
    (l.mergeSort fun a b => key a ≤ key b).filter (key · == i) = l.filter (key · == i) := by
  have hequal : (l.filter (key · == i)).Pairwise fun a b => decide (key a ≤ key b) = true := by
    apply List.pairwise_of_forall_mem_list
    intro a ha b hb
    have hka : key a = i := by simpa using (List.mem_filter.mp ha).2
    have hkb : key b = i := by simpa using (List.mem_filter.mp hb).2
    rw [decide_eq_true_eq]
    omega
  have hsub : (l.filter (key · == i)).Sublist (l.mergeSort fun a b => key a ≤ key b) := by
    apply List.sublist_mergeSort _ _ hequal List.filter_sublist
    · intro a b c hab hbc
      simp only [decide_eq_true_eq] at hab hbc ⊢
      omega
    · intro a b
      simp only [Bool.or_eq_true, decide_eq_true_eq]
      omega
  have hfilter := hsub.filter (key · == i)
  rw [List.filter_filter] at hfilter
  simp only [Bool.and_self] at hfilter
  refine (hfilter.eq_of_length ?_).symm
  exact ((List.mergeSort_perm l _).filter _).length_eq.symm

/-- A list that ascends by a key is cut in two by any bound on the key. -/
theorem filter_append_filter_of_ascending (h : l.Pairwise fun a b => key a ≤ key b) (i : Int) :
    l.filter (key · < i) ++ l.filter (i ≤ key ·) = l := by
  induction l with
  | nil => rfl
  | cons a l ih =>
    obtain ⟨ha, hl⟩ := List.pairwise_cons.mp h
    by_cases hi : key a < i
    · have hi' : ¬ i ≤ key a := by omega
      simp only [List.filter_cons, hi, hi', decide_true, decide_false, if_true, Bool.false_eq_true,
        if_false, List.cons_append, ih hl]
    · have hnone : (a :: l).filter (key · < i) = [] := by
        rw [List.filter_eq_nil_iff]
        intro b hb
        rcases List.mem_cons.mp hb with rfl | hb
        · simpa using hi
        · have := ha b hb
          simp only [decide_eq_true_eq]
          omega
      have hall : (a :: l).filter (i ≤ key ·) = a :: l := by
        rw [List.filter_eq_self]
        intro b hb
        rcases List.mem_cons.mp hb with rfl | hb
        · simp only [decide_eq_true_eq]
          omega
        · have := ha b hb
          simp only [decide_eq_true_eq]
          omega
      rw [hnone, hall, List.nil_append]

/-- A list that ascends by a key is made of the members of each key in turn. -/
theorem flatMap_filter_of_ascending {n : Nat} (h : l.Pairwise fun a b => key a ≤ key b)
    (hk : ∀ a ∈ l, 0 ≤ key a ∧ key a < n) :
    ((List.range n).flatMap fun i : Nat => l.filter (key · == (i : Int))) = l := by
  induction n generalizing l with
  | zero =>
    cases l with
    | nil => rfl
    | cons a l =>
      have := hk a List.mem_cons_self
      omega
  | succ n ih =>
    have hlast : l.filter (key · == (n : Int)) = l.filter ((n : Int) ≤ key ·) := by
      refine List.filter_congr fun a ha => ?_
      have := hk a ha
      rw [Bool.eq_iff_iff, beq_iff_eq, decide_eq_true_eq]
      omega
    have hbefore : ((List.range n).flatMap fun i : Nat => l.filter (key · == (i : Int))) =
        l.filter (key · < (n : Int)) := by
      rw [← ih (h.filter _) (l := l.filter (key · < (n : Int)))]
      · refine List.flatMap_congr fun i hi => ?_
        have hi := List.mem_range.mp hi
        rw [List.filter_filter]
        refine List.filter_congr fun a _ => ?_
        rw [Bool.eq_iff_iff, Bool.and_eq_true, beq_iff_eq, decide_eq_true_eq]
        omega
      · intro a ha
        obtain ⟨hmem, hlt⟩ := List.mem_filter.mp ha
        exact ⟨(hk a hmem).1, of_decide_eq_true hlt⟩
    rw [List.range_succ, List.flatMap_append, List.flatMap_singleton, hbefore, hlast,
      filter_append_filter_of_ascending h]

/-- Sorting by a key puts the members of each key in turn, in their order. -/
theorem mergeSort_key_eq_flatMap {n : Nat} (hk : ∀ a ∈ l, 0 ≤ key a ∧ key a < n) :
    (l.mergeSort fun a b => key a ≤ key b) =
      (List.range n).flatMap fun i : Nat => l.filter (key · == (i : Int)) := by
  rw [← flatMap_filter_of_ascending (pairwise_mergeSort_key key l) (n := n)]
  · refine List.flatMap_congr fun i _ => ?_
    exact filter_mergeSort_key key l i
  · intro a ha
    exact hk a (List.mem_mergeSort.mp ha)

end Sorting

end Breadboard
