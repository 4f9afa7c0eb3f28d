/-! The machine-readable context of a diagnostic: texts under keys, in the order of the keys.
The order is part of the type, so equal contents are equal contexts. -/
namespace BraceTemplate

/-- Texts under keys, each key once and in increasing order. -/
structure Context where
  entries : List (String × String)
  increasing : entries.Pairwise (·.1 < ·.1)
  deriving DecidableEq

namespace Context

def empty : Context := ⟨[], .nil⟩

/-- Puts `value` under `key` into entries in key order, in place of what was there. -/
def place (key value : String) : List (String × String) → List (String × String)
  | [] => [(key, value)]
  | (k, v) :: rest =>
    if key < k then (key, value) :: (k, v) :: rest
    else if k < key then (k, v) :: place key value rest
    else (key, value) :: rest

private theorem place_key {key value : String} {entries : List (String × String)} {e : String × String}
    (h : e ∈ place key value entries) : e.1 = key ∨ e ∈ entries := by
  induction entries with
  | nil => simp_all [place]
  | cons head rest ih =>
    obtain ⟨k, v⟩ := head
    rw [place] at h
    split at h
    · rcases List.mem_cons.1 h with rfl | h
      · exact .inl rfl
      · exact .inr h
    · split at h
      · rcases List.mem_cons.1 h with rfl | h
        · exact .inr List.mem_cons_self
        · exact (ih h).imp_right (List.mem_cons_of_mem _)
      · rcases List.mem_cons.1 h with rfl | h
        · exact .inl rfl
        · exact .inr (List.mem_cons_of_mem _ h)

theorem place_increasing {key value : String} {entries : List (String × String)}
    (h : entries.Pairwise (·.1 < ·.1)) : (place key value entries).Pairwise (·.1 < ·.1) := by
  induction entries with
  | nil => simp [place]
  | cons head rest ih =>
    obtain ⟨k, v⟩ := head
    obtain ⟨hk, hr⟩ := List.pairwise_cons.1 h
    rw [place]
    split
    · rename_i hlt
      refine List.pairwise_cons.2 ⟨fun e he => ?_, h⟩
      rcases List.mem_cons.1 he with rfl | he
      · exact hlt
      · exact String.lt_trans hlt (hk e he)
    · rename_i hnlt
      split
      · rename_i hgt
        refine List.pairwise_cons.2 ⟨fun e he => ?_, ih hr⟩
        rcases place_key he with he | he
        · rw [he]; exact hgt
        · exact hk e he
      · rename_i hngt
        have he : key = k := String.le_antisymm hngt hnlt
        subst he
        exact List.pairwise_cons.2 ⟨hk, hr⟩

/-- The context with `value` under `key`. -/
def insert (context : Context) (key value : String) : Context :=
  ⟨place key value context.entries, place_increasing context.increasing⟩

/-- The context of the listed entries. Of two entries under one key the later counts. -/
def ofList (entries : List (String × String)) : Context :=
  entries.foldl (fun context (key, value) => context.insert key value) empty

end Context

end BraceTemplate
