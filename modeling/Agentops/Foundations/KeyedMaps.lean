import Agentops.Foundations.KeyedTable
import Mathlib.Logic.Function.Basic

/-!
# Keyed tables as maps

A table with a key and a value in every row is read as a map. Inserting, changing and deleting the row with a key
changes what the map has at that key and nothing else, and with a unique key the map has exactly the rows. A key of
two parts makes one map for every first part.
-/

namespace KeyedTable

variable {Row K V : Type*} [DecidableEq K] (key : Row → K) (value : Row → V)

/-- What the first row with the key has. -/
def toMap (rows : List Row) (k : K) : Option V := (rows.find? fun r => key r = k).map value

section Maps

variable {key value} {rows rows' : List Row} {k : K} {v : V}

/-- With a unique key every row counts. -/
theorem Unique.toMap_eq_some_iff (h : Unique key rows) :
    toMap key value rows k = some v ↔ ∃ r ∈ rows, key r = k ∧ value r = v := by
  unfold toMap
  constructor
  · intro hv
    obtain ⟨r, hr, rfl⟩ := Option.map_eq_some_iff.mp hv
    exact ⟨r, List.mem_of_find?_eq_some hr, by simpa using List.find?_some hr, rfl⟩
  · rintro ⟨r, hr, rfl, rfl⟩
    rw [h.find?_eq_some hr]
    rfl

/-- Nothing is found under a key that no row has. -/
theorem find?_eq_none_iff : rows.find? (fun r => decide (key r = k)) = none ↔ k ∉ rows.map key := by
  simp [List.find?_eq_none]

/-- A row with a new key adds its value to the map. -/
theorem toMap_append {row : Row} (hnew : key row ∉ rows.map key) :
    toMap key value (rows ++ [row]) = Function.update (toMap key value rows) (key row) (some (value row)) := by
  funext j
  by_cases hj : j = key row
  · subst hj
    simp [toMap, List.find?_append, find?_eq_none_iff.mpr hnew]
  · simp [toMap, List.find?_append, Function.update_of_ne hj, Ne.symm hj]

/-- A change of the row with a key changes what the map has at the key. -/
theorem toMap_update {change : Row → Row} (hkey : ∀ r, key (change r) = key r) (hvalue : ∀ r, value (change r) = v)
    (htaken : k ∈ rows.map key) :
    toMap key value (update key k change rows) = Function.update (toMap key value rows) k (some v) := by
  funext j
  have hsame : (fun r => decide (key (if key r = k then change r else r) = j)) = fun r => decide (key r = j) := by
    funext r
    split
    · rw [hkey]
    · rfl
  have hfind : toMap key value (update key k change rows) j =
      (rows.find? fun r => key r = j).map fun r => value (if key r = k then change r else r) := by
    rw [toMap, update, List.find?_map, Function.comp_def, hsame, Option.map_map]
    rfl
  rw [hfind]
  by_cases hj : j = k
  · subst hj
    obtain ⟨r, hr⟩ : ∃ r, rows.find? (fun r => decide (key r = j)) = some r := by
      obtain ⟨r, hr, hkr⟩ := List.mem_map.mp htaken
      exact Option.isSome_iff_exists.mp (List.find?_isSome.mpr ⟨r, hr, by simpa using hkr⟩)
    have hkr : key r = j := by simpa using List.find?_some hr
    rw [hr, Function.update_self, Option.map_some, if_pos hkr, hvalue]
  · rw [Function.update_of_ne hj, toMap]
    refine Option.map_congr fun r hr => ?_
    have hkr : key r = j := by simpa using List.find?_some hr
    rw [if_neg (hkr ▸ hj)]

/-- Deleting the rows with a key takes it out of the map. -/
theorem toMap_delete : toMap key value (rows.filter fun r => key r ≠ k) =
    Function.update (toMap key value rows) k none := by
  funext j
  by_cases hj : j = k
  · subst hj
    rw [Function.update_self, toMap, find?_eq_none_iff.mpr (by simp)]
    rfl
  · have hsame : (fun r => decide (decide (key r ≠ k) = true ∧ decide (key r = j) = true)) =
        fun r => decide (key r = j) := by
      funext r
      by_cases hr : key r = j
      · simp [hr, hj]
      · simp [hr]
    rw [Function.update_of_ne hj, toMap, List.find?_filter, hsame, toMap]

/-- An association list is read by its first entries. -/
theorem lookup_eq_toMap (entries : List (K × V)) (k : K) : entries.lookup k = toMap Prod.fst Prod.snd entries k := by
  induction entries with
  | nil => rfl
  | cons entry rest ih =>
    obtain ⟨j, w⟩ := entry
    by_cases hj : k = j
    · simp [toMap, hj]
    · have hne : ¬ j = k := fun h => hj h.symm
      rw [List.lookup_cons, beq_false_of_ne hj, ih]
      simp [toMap, hne]

end Maps

section Parts

variable {A B : Type*} [DecidableEq A] [DecidableEq B] {a a' : A} {b : B} {v : Option V}

/-- A change at a key of two parts is a change in the map of its first part. -/
theorem curry_update_self (m : A × B → Option V) :
    (fun b' => Function.update m (a, b) v (a, b')) = Function.update (fun b' => m (a, b')) b v := by
  funext b'
  by_cases hb : b' = b
  · simp [hb]
  · simp [hb]

/-- The maps of the other first parts stay as they are. -/
theorem curry_update_of_ne (h : a' ≠ a) (m : A × B → Option V) :
    (fun b' => Function.update m (a, b) v (a', b')) = fun b' => m (a', b') := by
  funext b'
  exact Function.update_of_ne (fun heq => h (congrArg Prod.fst heq)) _ _

end Parts

section Dictionaries

variable {key} {rows batch : List Row}

/-- Upserts of new rows append them. -/
theorem Unique.foldl_upsert_eq_append (h : Unique key (rows ++ batch)) :
    batch.foldl (fun rows row => KeyedTable.upsert key row rows) rows = rows ++ batch := by
  induction batch generalizing rows with
  | nil => exact (List.append_nil rows).symm
  | cons row batch ih =>
    have hsplit : rows ++ row :: batch = (rows ++ [row]) ++ batch := by simp
    have hfirst : KeyedTable.upsert key row rows = rows ++ [row] := if_neg h.key_notMem
    rw [List.foldl_cons, hfirst, hsplit]
    exact ih (hsplit ▸ h)

end Dictionaries

end KeyedTable
