/-!
Tables of entries by name, which are put in front after an older entry of the name was taken out.
-/

namespace StatePool

variable {α : Type}

theorem lookup_cons_ite (entries : List (String × α)) (key other : String) (a : α) :
    ((key, a) :: entries).lookup other = if other = key then some a else entries.lookup other := by
  rw [List.lookup_cons]
  by_cases hother : other = key
  · simp [hother]
  · simp [hother, beq_eq_false_iff_ne.2 hother]

/-- Of a table that a key was taken out of, the rest is left. -/
theorem lookup_filter_ne (entries : List (String × α)) (key other : String) :
    (entries.filter fun entry => entry.1 != key).lookup other =
      if other = key then none else entries.lookup other := by
  induction entries with
  | nil => simp
  | cons entry entries ih =>
      obtain ⟨first, a⟩ := entry
      rw [List.filter_cons, lookup_cons_ite]
      by_cases hkey : first = key
      · subst hkey
        simp only [bne_self_eq_false, Bool.false_eq_true, ↓reduceIte, ih]
        split <;> rfl
      · simp only [bne_iff_ne, ne_eq, hkey, not_false_eq_true, ↓reduceIte, lookup_cons_ite, ih]
        by_cases hother : other = first
        · simp [hother, hkey]
        · simp [hother]

theorem nodup_cons_filter {entries : List (String × α)} (h : (entries.map Prod.fst).Nodup)
    (key : String) (a : α) :
    (((key, a) :: entries.filter fun entry => entry.1 != key).map Prod.fst).Nodup := by
  rw [List.map_cons, List.nodup_cons]
  exact ⟨by simp, h.sublist (List.filter_sublist.map Prod.fst)⟩

theorem filter_ne_of_lookup {entries : List (String × α)} {key : String}
    (h : entries.lookup key = none) : (entries.filter fun entry => entry.1 != key) = entries := by
  rw [List.filter_eq_self]
  intro entry hentry
  rw [bne_comm]
  exact List.lookup_eq_none_iff.1 h entry hentry

theorem length_filter_ne {entries : List (String × α)} (h : (entries.map Prod.fst).Nodup)
    {key : String} {a : α} (hkey : entries.lookup key = some a) :
    (entries.filter fun entry => entry.1 != key).length + 1 = entries.length := by
  obtain ⟨before, after, rfl, hbefore⟩ := List.lookup_eq_some_iff.1 hkey
  have hfront : (before.filter fun entry => entry.1 != key) = before :=
    filter_ne_of_lookup (List.lookup_eq_none_iff.2 hbefore)
  have hback : (after.filter fun entry => entry.1 != key) = after := by
    rw [List.filter_eq_self]
    intro entry hentry
    rw [List.map_append, List.map_cons, List.nodup_append] at h
    have hnone := (List.nodup_cons.1 h.2.1).1
    rw [bne_iff_ne]
    rintro rfl
    exact hnone (List.mem_map.2 ⟨entry, hentry, rfl⟩)
  rw [List.filter_append, List.filter_cons, hfront, hback]
  simp only [bne_self_eq_false, Bool.false_eq_true, ↓reduceIte, List.length_append,
    List.length_cons]
  omega

end StatePool
