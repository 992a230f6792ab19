import Mathlib.Data.Finset.Card
import PanelSkin.Markup.Attributes

/-!
Attribute lists as ordered maps. What one insertion does to the names and to the values says what
any number of them do: every name is kept once, at the place of its first insertion, with the value
of its last.
-/

namespace PanelSkin.Markup

namespace Attributes

/-- Attributes after further insertions, one after the other. -/
def insertAll (a : Attributes) (inserted : List (String × String)) : Attributes :=
  inserted.foldl (fun a entry => a.insert entry.1 entry.2) a

/-- Nothing but what has been inserted, as an ordered map. -/
structure IsMapOf (inserted : List (String × String)) (a : Attributes) : Prop where
  distinct : a.names.Nodup
  /-- The names stand in the order of their first insertions. -/
  order : a.names = (inserted.map (·.1)).eraseDups
  /-- The value under a name is the last that was inserted. -/
  last : ∀ name, a.get? name = inserted.reverse.lookup name
  present : ∀ name, (a.contains name = true ↔ ∃ value, a.get? name = some value) ∧
    (a.contains name = true ↔ name ∈ inserted.map (·.1))
  size : a.size = (inserted.map (·.1)).toFinset.card

theorem names_insert (a : Attributes) (name value : String) :
    (a.insert name value).names = if name ∈ a.names then a.names else a.names ++ [name] := by
  obtain ⟨entries⟩ := a
  unfold insert names
  induction entries with
  | nil => rfl
  | cons entry entries ih =>
      obtain ⟨first, old⟩ := entry
      dsimp only at ih ⊢
      by_cases hfirst : first = name
      · rw [insertEntry, if_pos hfirst, List.map_cons, List.map_cons, if_pos (by simp [hfirst])]
      · rw [insertEntry, if_neg hfirst, List.map_cons, ih, List.map_cons]
        by_cases hlater : name ∈ entries.map (·.1)
        · rw [if_pos hlater, if_pos (List.mem_cons_of_mem first hlater)]
        · rw [if_neg hlater, if_neg (by simpa [Ne.symm hfirst] using hlater), List.cons_append]

private theorem lookup_entry (first value : String) (rest : List (String × String))
    (name : String) :
    List.lookup name ((first, value) :: rest) =
      if name = first then some value else rest.lookup name := by
  rw [List.lookup_cons]
  by_cases h : name = first
  · rw [if_pos h, beq_iff_eq.mpr h]
  · rw [if_neg h, beq_eq_false_iff_ne.mpr h]

theorem get?_insert (a : Attributes) (name value other : String) :
    (a.insert name value).get? other = if other = name then some value else a.get? other := by
  obtain ⟨entries⟩ := a
  unfold insert get?
  induction entries with
  | nil => exact lookup_entry name value [] other
  | cons entry entries ih =>
      obtain ⟨first, old⟩ := entry
      dsimp only at ih ⊢
      by_cases hfirst : first = name
      · subst hfirst
        rw [insertEntry, if_pos rfl, lookup_entry, lookup_entry]
        split <;> rfl
      · rw [insertEntry, if_neg hfirst, lookup_entry, ih, lookup_entry]
        by_cases h : other = first
        · rw [if_pos h, if_pos h, if_neg (h ▸ hfirst)]
        · rw [if_neg h, if_neg h]

theorem insertAll_append_single (a : Attributes) (inserted : List (String × String))
    (entry : String × String) :
    a.insertAll (inserted ++ [entry]) = (a.insertAll inserted).insert entry.1 entry.2 :=
  List.foldl_concat _ _ _ _

theorem names_insertAll (inserted : List (String × String)) :
    (insertAll {} inserted).names = (inserted.map (·.1)).eraseDups := by
  induction inserted using List.reverseRecOn with
  | nil => rfl
  | append_singleton inserted entry ih =>
      rw [insertAll_append_single, names_insert, ih, List.map_append, List.eraseDups_append,
        List.map_singleton]
      by_cases hmem : entry.1 ∈ inserted.map (·.1)
      · have hnone : [entry.1].removeAll (inserted.map (·.1)) = [] := by
          rw [List.removeAll, List.filter_cons_of_neg (by simpa using hmem), List.filter_nil]
        rw [if_pos (List.mem_eraseDups.mpr hmem), hnone, List.eraseDups_nil, List.append_nil]
      · have hone : [entry.1].removeAll (inserted.map (·.1)) = [entry.1] := by
          rw [List.removeAll, List.filter_cons_of_pos (by simpa using hmem), List.filter_nil]
        rw [if_neg (fun h => hmem (List.mem_eraseDups.mp h)), hone]
        rfl

theorem nodup_insertAll (inserted : List (String × String)) :
    (insertAll {} inserted).names.Nodup := by
  induction inserted using List.reverseRecOn with
  | nil => exact List.nodup_nil
  | append_singleton inserted entry ih =>
      rw [insertAll_append_single, names_insert]
      split
      · exact ih
      · rename_i hnew
        rw [← List.concat_eq_append]
        exact ih.concat hnew

theorem get?_insertAll (inserted : List (String × String)) (name : String) :
    (insertAll {} inserted).get? name = inserted.reverse.lookup name := by
  induction inserted using List.reverseRecOn with
  | nil => rfl
  | append_singleton inserted entry ih =>
      rw [insertAll_append_single, get?_insert, ih, List.reverse_append, List.reverse_singleton,
        List.singleton_append, lookup_entry]

theorem isMapOf_insertAll (inserted : List (String × String)) :
    IsMapOf inserted (insertAll {} inserted) where
  distinct := nodup_insertAll inserted
  order := names_insertAll inserted
  last := get?_insertAll inserted
  present name := by
    refine ⟨Option.isSome_iff_exists, ?_⟩
    rw [contains, get?_insertAll, List.lookup_isSome_iff, List.mem_map]
    constructor
    · rintro ⟨entry, hentry, hname⟩
      exact ⟨entry, List.mem_reverse.mp hentry, (beq_iff_eq.mp hname).symm⟩
    · rintro ⟨entry, hentry, hname⟩
      exact ⟨entry, List.mem_reverse.mpr hentry, beq_iff_eq.mpr hname.symm⟩
  size := by
    have hnames : (insertAll {} inserted).names.toFinset = (inserted.map (·.1)).toFinset := by
      ext name
      rw [names_insertAll, List.mem_toFinset, List.mem_toFinset, List.mem_eraseDups]
    rw [← hnames, List.toFinset_card_of_nodup (nodup_insertAll inserted), names, List.length_map]
    rfl

example :
    (insertAll {} [("x", "1"), ("y", "2"), ("x", "3")]).entries =
      [("x", "3"), ("y", "2")] := by
  decide

end Attributes

end PanelSkin.Markup
