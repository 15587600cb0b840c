/-!
# Association lists

Lists of keys and values in the order in which the keys were first put; putting a key again keeps
its place and changes its value.
-/

namespace Breadboard.Assoc

variable {α β : Type} [BEq α]

/-- Gives `k` the value `v`. -/
def put (k : α) (v : β) : List (α × β) → List (α × β)
  | [] => [(k, v)]
  | (l, w) :: rest => if l == k then (l, v) :: rest else (l, w) :: put k v rest

/-- The list made by putting the entries one after another. -/
def ofList (entries : List (α × β)) : List (α × β) :=
  entries.foldl (fun acc e => put e.1 e.2 acc) []

/-- The keys, in order. -/
def keys (entries : List (α × β)) : List α := entries.map (·.1)

theorem lookup_put [LawfulBEq α] (k l : α) (v : β) (entries : List (α × β)) :
    (put k v entries).lookup l = if l == k then some v else entries.lookup l := by
  induction entries with
  | nil => simp only [put, List.lookup_cons, List.lookup_nil]; split <;> simp_all
  | cons e rest ih =>
    obtain ⟨m, w⟩ := e
    by_cases hm : m = k
    · subst hm
      simp only [put, beq_self_eq_true, if_true, List.lookup_cons]
      split <;> simp_all
    · have h : (m == k) = false := by simpa using hm
      simp only [put, h, List.lookup_cons, Bool.false_eq_true, if_false]
      split
      · have : l = m := by simp_all
        subst this
        simp [h]
      · exact ih

/-- A key is put behind all others unless it is there already. -/
theorem keys_put [LawfulBEq α] (k : α) (v : β) (entries : List (α × β)) :
    keys (put k v entries) = if k ∈ keys entries then keys entries else keys entries ++ [k] := by
  induction entries with
  | nil => simp [put, keys]
  | cons e rest ih =>
    obtain ⟨m, w⟩ := e
    by_cases hm : m = k
    · simp [put, keys, hm]
    · have h : (m == k) = false := by simpa using hm
      simp only [keys, List.map_cons, List.mem_cons] at ih ⊢
      simp only [put, h, Bool.false_eq_true, if_false, List.map_cons, ih]
      by_cases hk : k ∈ rest.map (·.1)
      · simp [hk]
      · simp [hk, Ne.symm hm]

theorem mem_put [LawfulBEq α] {k : α} {v : β} {entries : List (α × β)} {e : α × β}
    (h : e ∈ put k v entries) : e = (k, v) ∨ e ∈ entries := by
  induction entries with
  | nil => exact .inl (List.mem_singleton.mp h)
  | cons f rest ih =>
    obtain ⟨l, w⟩ := f
    unfold put at h
    split at h
    · next hl =>
      rcases List.mem_cons.mp h with rfl | h
      · rw [beq_iff_eq.mp hl]
        exact .inl rfl
      · exact .inr (List.mem_cons_of_mem _ h)
    · rcases List.mem_cons.mp h with rfl | h
      · exact .inr List.mem_cons_self
      · exact (ih h).imp_right (List.mem_cons_of_mem _)

theorem mem_foldl_put [LawfulBEq α] {more entries : List (α × β)} {e : α × β}
    (h : e ∈ more.foldl (fun acc f => put f.1 f.2 acc) entries) : e ∈ entries ∨ e ∈ more := by
  induction more generalizing entries with
  | nil => exact .inl h
  | cons f more ih =>
    rcases ih h with hput | hmore
    · rcases mem_put hput with rfl | hmem
      · exact .inr List.mem_cons_self
      · exact .inl hmem
    · exact .inr (List.mem_cons_of_mem f hmore)

/-- Keys stay distinct. -/
theorem nodup_keys_put [LawfulBEq α] {entries : List (α × β)} (h : (keys entries).Nodup) (k : α)
    (v : β) : (keys (put k v entries)).Nodup := by
  rw [keys_put]
  split
  · exact h
  · next hk =>
    refine List.nodup_append.mpr ⟨h, by simp, ?_⟩
    rintro l hl _ hk' rfl
    rw [List.mem_singleton.mp hk'] at hl
    exact hk hl

theorem lookup_eq_none_iff [LawfulBEq α] {k : α} {entries : List (α × β)} :
    entries.lookup k = none ↔ k ∉ keys entries := by
  simp only [List.lookup_eq_none_iff, keys, List.mem_map, bne_iff_ne]
  exact ⟨fun h ⟨e, he, hk⟩ => h e he hk.symm, fun h e he hk => h ⟨e, he, hk.symm⟩⟩

theorem mem_of_lookup [LawfulBEq α] {k : α} {v : β} {entries : List (α × β)}
    (h : entries.lookup k = some v) : (k, v) ∈ entries := by
  obtain ⟨before, after, rfl, -⟩ := List.lookup_eq_some_iff.mp h
  simp

/-- Under distinct keys every entry is found by its key. -/
theorem lookup_of_mem [LawfulBEq α] {k : α} {v : β} {entries : List (α × β)}
    (hd : (keys entries).Nodup) (h : (k, v) ∈ entries) : entries.lookup k = some v := by
  obtain ⟨before, after, rfl⟩ := List.append_of_mem h
  refine List.lookup_eq_some_iff.mpr ⟨before, after, rfl, fun e he => ?_⟩
  simp only [keys, List.map_append, List.map_cons] at hd
  have hne : e.1 ≠ k :=
    (List.nodup_append.mp hd).2.2 e.1 (List.mem_map_of_mem he) k (List.mem_cons_self ..)
  simpa using hne.symm

/-- A key is found with a value that is the only one it has. -/
theorem lookup_of_forall [LawfulBEq α] {k : α} {v : β} {entries : List (α × β)}
    (h : (k, v) ∈ entries) (hall : ∀ w, (k, w) ∈ entries → w = v) : entries.lookup k = some v := by
  cases hk : entries.lookup k with
  | none => exact absurd (List.mem_map_of_mem h) (lookup_eq_none_iff.mp hk)
  | some w => rw [hall w (mem_of_lookup hk)]

theorem put_of_lookup_eq_some [LawfulBEq α] {k : α} {v : β} {entries : List (α × β)}
    (h : entries.lookup k = some v) : put k v entries = entries := by
  induction entries with
  | nil => simp at h
  | cons e rest ih =>
    obtain ⟨l, w⟩ := e
    by_cases hl : l = k
    · subst hl
      simp only [List.lookup_cons_self, Option.some.injEq] at h
      simp [put, h]
    · have hb : (l == k) = false := by simpa using hl
      have hb' : (k == l) = false := by simpa using Ne.symm hl
      simp only [List.lookup_cons, hb'] at h
      simp only [put, hb, Bool.false_eq_true, if_false, ih h]

theorem put_of_lookup_eq_none [LawfulBEq α] {k : α} {v : β} {entries : List (α × β)}
    (h : entries.lookup k = none) : put k v entries = entries ++ [(k, v)] := by
  induction entries with
  | nil => rfl
  | cons e rest ih =>
    obtain ⟨l, w⟩ := e
    have hl : l ≠ k := fun he => by simp [he] at h
    have hb : (l == k) = false := by simpa using hl
    have hb' : (k == l) = false := by simpa using hl.symm
    simp only [List.lookup_cons, hb'] at h
    simp only [put, hb, Bool.false_eq_true, if_false, ih h, List.cons_append]

/-- Putting entries whose keys are new and distinct appends them. -/
theorem foldl_put [LawfulBEq α] (entries more : List (α × β))
    (hd : (keys (entries ++ more)).Nodup) :
    more.foldl (fun acc e => put e.1 e.2 acc) entries = entries ++ more := by
  induction more generalizing entries with
  | nil => simp
  | cons e rest ih =>
    have hne : entries.lookup e.1 = none := by
      rw [lookup_eq_none_iff]
      simp only [keys, List.map_append, List.map_cons] at hd
      exact fun he => (List.nodup_append.mp hd).2.2 _ he _ (List.mem_cons_self ..) rfl
    rw [List.foldl_cons, put_of_lookup_eq_none hne, ih _ (by simpa [keys] using hd)]
    simp

/-- Of the values put for a key the last counts. -/
theorem lookup_foldl_put [LawfulBEq α] (entries more : List (α × β)) (k : α) :
    (more.foldl (fun acc e => put e.1 e.2 acc) entries).lookup k =
      (more.reverse.lookup k).or (entries.lookup k) := by
  induction more generalizing entries with
  | nil => rfl
  | cons e more ih =>
    obtain ⟨l, v⟩ := e
    rw [List.foldl_cons, ih, lookup_put, List.reverse_cons, List.lookup_append, Option.or_assoc]
    congr 1
    by_cases hk : k = l
    · subst hk
      simp
    · have hb : (k == l) = false := by simpa using hk
      simp only [List.lookup_cons, List.lookup_nil, hb, Bool.false_eq_true, if_false,
        Option.none_or]

theorem lookup_ofList [LawfulBEq α] (entries : List (α × β)) (k : α) :
    (ofList entries).lookup k = entries.reverse.lookup k := by
  rw [ofList, lookup_foldl_put, List.lookup_nil, Option.or_none]

theorem nodup_keys_ofList [LawfulBEq α] (entries : List (α × β)) :
    (keys (ofList entries)).Nodup := by
  have hfold (more : List (α × β)) : ∀ acc : List (α × β), (keys acc).Nodup →
      (keys (more.foldl (fun acc e => put e.1 e.2 acc) acc)).Nodup := by
    induction more with
    | nil => exact fun _ h => h
    | cons e more ih => exact fun acc h => ih _ (nodup_keys_put h e.1 e.2)
  exact hfold entries [] List.nodup_nil

theorem mem_keys_ofList [LawfulBEq α] {entries : List (α × β)} {k : α} :
    k ∈ keys (ofList entries) ↔ k ∈ keys entries := by
  rw [← Decidable.not_iff_not, ← lookup_eq_none_iff, lookup_ofList, lookup_eq_none_iff, keys, keys,
    List.map_reverse, List.mem_reverse]

theorem ofList_of_nodup [LawfulBEq α] {entries : List (α × β)} (hd : (keys entries).Nodup) :
    ofList entries = entries := by
  simpa [ofList] using foldl_put [] entries (by simpa using hd)

end Breadboard.Assoc
