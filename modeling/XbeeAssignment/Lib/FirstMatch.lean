import Mathlib.Data.List.Nodup

/-!
# First match in a list that grows at its end

A list of entries is searched for the first one with a given key.  What is found
does not depend on what is appended later (`first_append_of_mem`), and appending an
entry makes a difference only if its key was not there yet (`first_concat`).
-/

namespace FirstMatch

variable {α κ : Type*} [DecidableEq κ] {key : α → κ} {k : κ} {a : α} {entries : List α}

/-- The first entry with the key. -/
def first (key : α → κ) (k : κ) (entries : List α) : Option α :=
  entries.find? fun a => key a = k

theorem mem_of_first (hfirst : first key k entries = some a) : a ∈ entries ∧ key a = k :=
  ⟨List.mem_of_find?_eq_some hfirst, by simpa using List.find?_some hfirst⟩

/-- Some entry is found for the key of an entry. -/
theorem exists_first (key : α → κ) (hmem : a ∈ entries) :
    ∃ b, first key (key a) entries = some b := by
  apply Option.isSome_iff_exists.mp
  rw [first, List.find?_isSome]
  exact ⟨a, hmem, decide_eq_true rfl⟩

/-- An entry whose key is there is found as before. -/
theorem first_append_of_mem (hmem : a ∈ entries) (later : List α) :
    first key (key a) (entries ++ later) = first key (key a) entries := by
  obtain ⟨b, hb⟩ := exists_first key hmem
  rw [first, List.find?_append, ← first, hb, Option.some_or]

/-- The entry appended is found if none with its key was there. -/
theorem first_concat (key : α → κ) (entries : List α) (a : α) :
    first key (key a) (entries ++ [a]) = some ((first key (key a) entries).getD a) := by
  rw [first, List.find?_append, ← first]
  cases first key (key a) entries with
  | none => simp
  | some b => rfl

/-- An entry whose key no other one has is found. -/
theorem first_of_unique (hmem : a ∈ entries) (hunique : ∀ b ∈ entries, key b = key a → b = a) :
    first key (key a) entries = some a := by
  obtain ⟨b, hb⟩ := exists_first key hmem
  obtain ⟨hbmem, hkey⟩ := mem_of_first hb
  rw [hb, hunique b hbmem hkey]

theorem first_of_nodup (hnodup : (entries.map key).Nodup) (hmem : a ∈ entries) :
    first key (key a) entries = some a :=
  first_of_unique hmem fun _ hb hkey => List.inj_on_of_nodup_map hnodup hb hmem hkey

end FirstMatch
