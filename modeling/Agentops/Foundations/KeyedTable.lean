import Mathlib.Data.List.Basic
import Mathlib.Data.List.Nodup
import Mathlib.Data.List.Infix
import Mathlib.Data.List.Perm.Basic
import Mathlib.Data.List.Sort

/-!
# Tables as row lists with a unique key

A table is the list of its rows in insertion order, and a unique key is a function whose
values on the rows are distinct. The two ways the programs change a keyed table are inserting
unless the key is taken and updating the rows with one key; both keep the key unique.
-/

namespace KeyedTable

variable {Row Key : Type*} [DecidableEq Key] (key : Row → Key)

/-- The key identifies a row. -/
def Unique (rows : List Row) : Prop := (rows.map key).Nodup

/-- `INSERT … ON CONFLICT DO NOTHING`: append the row unless its key is taken. -/
def insertIgnore (rows : List Row) (row : Row) : List Row :=
  if key row ∈ rows.map key then rows else rows ++ [row]

/-- `UPDATE … WHERE key = k`: change exactly the rows with the given key. -/
def update (k : Key) (change : Row → Row) (rows : List Row) : List Row :=
  rows.map fun r => if key r = k then change r else r

section Unique

variable {key}

omit [DecidableEq Key] in
/-- Two rows of a keyed table with one key are one row. -/
theorem Unique.eq_of_key_eq {rows : List Row} (h : Unique key rows) {r r' : Row} (hr : r ∈ rows)
    (hr' : r' ∈ rows) (hkey : key r = key r') : r = r' :=
  List.inj_on_of_nodup_map h hr hr' hkey

omit [DecidableEq Key] in
/-- Appending a row whose key is new keeps the key unique. -/
theorem Unique.append {rows : List Row} (h : Unique key rows) {row : Row}
    (hnew : key row ∉ rows.map key) : Unique key (rows ++ [row]) := by
  unfold Unique at h ⊢
  rw [List.map_append, List.nodup_append]
  refine ⟨h, by simp, ?_⟩
  rintro a ha b hb rfl
  simp only [List.map_cons, List.map_nil, List.mem_singleton] at hb
  exact hnew (hb ▸ ha)

omit [DecidableEq Key] in
/-- The key of a row is new where the row stands. -/
theorem Unique.key_notMem {rows batch : List Row} {row : Row} (h : Unique key (rows ++ row :: batch)) :
    key row ∉ rows.map key := by
  intro hmem
  unfold Unique at h
  rw [List.map_append, List.map_cons] at h
  exact (List.nodup_append.mp h).2.2 _ hmem _ List.mem_cons_self rfl

omit [DecidableEq Key] in
/-- At most one row has a given key. -/
theorem Unique.length_filter_le {rows : List Row} (h : Unique key rows) (p : Row → Bool)
    (hp : ∀ r ∈ rows, ∀ r' ∈ rows, p r = true → p r' = true → key r = key r') :
    (rows.filter p).length ≤ 1 := by
  have hnodup : (rows.filter p).Nodup := (List.Nodup.of_map key h).filter p
  match hrows : rows.filter p with
  | [] => simp
  | [_] => simp
  | a :: b :: rest =>
    have ha : a ∈ rows.filter p := by simp [hrows]
    have hb : b ∈ rows.filter p := by simp [hrows]
    obtain ⟨ha, hpa⟩ := List.mem_filter.mp ha
    obtain ⟨hb, hpb⟩ := List.mem_filter.mp hb
    have hab : a = b := h.eq_of_key_eq ha hb (hp a ha b hb hpa hpb)
    simp [hrows, hab] at hnodup

/-- Searching a keyed table by its key finds the row that is there. -/
theorem Unique.find?_eq_some {rows : List Row} (h : Unique key rows) {r : Row} (hr : r ∈ rows) :
    rows.find? (fun r' => decide (key r' = key r)) = some r := by
  cases hfind : rows.find? (fun r' => decide (key r' = key r)) with
  | none =>
    have := List.find?_eq_none.mp hfind r hr
    simp at this
  | some r' =>
    have hkey : key r' = key r := by simpa using List.find?_some hfind
    rw [h.eq_of_key_eq (List.mem_of_find?_eq_some hfind) hr hkey]

end Unique

section InsertIgnore

/-- No row is lost or moved by an insertion. -/
theorem prefix_insertIgnore (rows : List Row) (row : Row) : rows <+: insertIgnore key rows row := by
  unfold insertIgnore
  split
  · exact List.prefix_refl _
  · exact List.prefix_append _ _

/-- A row of the new table was there or is the inserted one. -/
theorem mem_insertIgnore {rows : List Row} {row r : Row} (h : r ∈ insertIgnore key rows row) :
    r ∈ rows ∨ r = row := by
  unfold insertIgnore at h
  split at h
  · exact Or.inl h
  · simpa using h

/-- Afterwards the key is taken. -/
theorem key_mem_insertIgnore (rows : List Row) (row : Row) :
    key row ∈ (insertIgnore key rows row).map key := by
  unfold insertIgnore
  split
  · assumption
  · simp

variable {key} in
/-- Inserting unless the key is taken keeps the key unique. -/
theorem Unique.insertIgnore {rows : List Row} (h : Unique key rows) (row : Row) :
    Unique key (insertIgnore key rows row) := by
  unfold KeyedTable.insertIgnore
  by_cases htaken : key row ∈ rows.map key
  · rwa [if_pos htaken]
  · rw [if_neg htaken]
    exact h.append htaken

variable {key} in
/-- A batch of insertions keeps the key unique. -/
theorem Unique.foldl_insertIgnore {rows : List Row} (h : Unique key rows) (batch : List Row) :
    Unique key (batch.foldl (KeyedTable.insertIgnore key) rows) := by
  induction batch generalizing rows with
  | nil => exact h
  | cons row batch ih => exact ih (h.insertIgnore row)

/-- A batch of insertions only appends. -/
theorem prefix_foldl_insertIgnore (rows batch : List Row) :
    rows <+: batch.foldl (insertIgnore key) rows := by
  induction batch generalizing rows with
  | nil => exact List.prefix_refl _
  | cons row batch ih => exact (prefix_insertIgnore key rows row).trans (ih _)

/-- A row present after a batch was there or belongs to the batch. -/
theorem mem_foldl_insertIgnore {rows batch : List Row} {r : Row}
    (h : r ∈ batch.foldl (insertIgnore key) rows) : r ∈ rows ∨ r ∈ batch := by
  induction batch generalizing rows with
  | nil => exact Or.inl h
  | cons row batch ih =>
    rcases ih h with hrows | hbatch
    · rcases mem_insertIgnore key hrows with hold | rfl
      · exact Or.inl hold
      · exact Or.inr List.mem_cons_self
    · exact Or.inr (List.mem_cons_of_mem _ hbatch)

/-- After a batch every key of it is taken. -/
theorem key_mem_foldl_insertIgnore {rows batch : List Row} {row : Row} (h : row ∈ batch) :
    key row ∈ (batch.foldl (insertIgnore key) rows).map key := by
  induction batch generalizing rows with
  | nil => simp at h
  | cons first batch ih =>
    rcases List.mem_cons.mp h with rfl | hrest
    · have hgrown := prefix_foldl_insertIgnore key (insertIgnore key rows row) batch
      exact (hgrown.map key).subset (key_mem_insertIgnore key rows row)
    · exact ih hrest

/-- A batch whose keys are all taken changes nothing. -/
theorem foldl_insertIgnore_of_mem {rows batch : List Row} (h : ∀ row ∈ batch, key row ∈ rows.map key) :
    batch.foldl (insertIgnore key) rows = rows := by
  induction batch with
  | nil => rfl
  | cons row batch ih =>
    have hfirst : insertIgnore key rows row = rows := if_pos (h row List.mem_cons_self)
    rw [List.foldl_cons, hfirst]
    exact ih fun r hr => h r (List.mem_cons_of_mem _ hr)

variable {key} in
/-- A batch of new keys is appended as it is. -/
theorem Unique.foldl_insertIgnore_eq_append {rows batch : List Row} (h : Unique key (rows ++ batch)) :
    batch.foldl (KeyedTable.insertIgnore key) rows = rows ++ batch := by
  induction batch generalizing rows with
  | nil => exact (List.append_nil rows).symm
  | cons row batch ih =>
    have hsplit : rows ++ row :: batch = (rows ++ [row]) ++ batch := by simp
    have hfirst : KeyedTable.insertIgnore key rows row = rows ++ [row] := if_neg h.key_notMem
    rw [List.foldl_cons, hfirst, hsplit]
    exact ih (hsplit ▸ h)

end InsertIgnore

section Update

variable {key} {k : Key} {change : Row → Row}

/-- A row after an update comes from one row before it. -/
theorem mem_update {rows : List Row} {r' : Row} :
    r' ∈ update key k change rows ↔ ∃ r ∈ rows, (if key r = k then change r else r) = r' :=
  List.mem_map

theorem update_append (first second : List Row) :
    update key k change (first ++ second) = update key k change first ++ update key k change second :=
  List.map_append

/-- An update of a key that no row has changes nothing. -/
theorem update_of_notMem {rows : List Row} (h : k ∉ rows.map key) : update key k change rows = rows := by
  unfold update
  conv_rhs => rw [← List.map_id rows]
  apply List.map_congr_left
  intro r hr
  exact if_neg fun hkey : key r = k => h (hkey ▸ List.mem_map_of_mem hr)

/-- An update that leaves keys alone keeps the list of keys. -/
theorem map_key_update (hchange : ∀ r, key (change r) = key r) (rows : List Row) :
    (update key k change rows).map key = rows.map key := by
  unfold update
  rw [List.map_map]
  apply List.map_congr_left
  intro r _
  simp only [Function.comp_apply]
  split
  · exact hchange r
  · rfl

/-- An update that leaves keys alone keeps the key unique. -/
theorem Unique.update {rows : List Row} (h : Unique key rows)
    (hchange : ∀ r, key (change r) = key r) : Unique key (update key k change rows) := by
  unfold Unique
  rw [map_key_update hchange]
  exact h

end Update

section Upsert

/-- `INSERT … ON CONFLICT DO UPDATE`: the row takes the place of the one with its key, or is appended. -/
def upsert (row : Row) (rows : List Row) : List Row :=
  if key row ∈ rows.map key then update key (key row) (fun _ => row) rows else rows ++ [row]

variable {key} {row r : Row} {rows : List Row}

/-- Afterwards the row is there, and so are the rows with other keys. -/
theorem mem_upsert : r ∈ upsert key row rows ↔ r = row ∨ r ∈ rows ∧ key r ≠ key row := by
  unfold upsert
  by_cases htaken : key row ∈ rows.map key
  · rw [if_pos htaken, mem_update]
    obtain ⟨old, hold, hkey⟩ := List.mem_map.mp htaken
    constructor
    · rintro ⟨r', hr', rfl⟩
      by_cases hr : key r' = key row
      · exact .inl (if_pos hr)
      · exact .inr (by simp [hr, hr'])
    · rintro (rfl | ⟨hr, hne⟩)
      · exact ⟨old, hold, if_pos hkey⟩
      · exact ⟨r, hr, if_neg hne⟩
  · rw [if_neg htaken, List.mem_append, List.mem_singleton]
    constructor
    · rintro (hr | rfl)
      · exact .inr ⟨hr, fun hkey => htaken (hkey ▸ List.mem_map_of_mem hr)⟩
      · exact .inl rfl
    · rintro (rfl | ⟨hr, -⟩)
      · exact .inr rfl
      · exact .inl hr

/-- An upsert keeps the key unique. -/
theorem Unique.upsert (h : Unique key rows) (row : Row) : Unique key (upsert key row rows) := by
  unfold KeyedTable.upsert
  by_cases htaken : key row ∈ rows.map key
  · rw [if_pos htaken]
    unfold Unique KeyedTable.update
    rw [List.map_map]
    refine (List.map_congr_left fun r _ => ?_).symm ▸ h
    rw [Function.comp_apply]
    by_cases hkey : key r = key row
    · rw [if_pos hkey, hkey]
    · rw [if_neg hkey]
  · rw [if_neg htaken]
    exact h.append htaken

end Upsert

section Sorting

variable {key} {le : Key → Key → Bool}

omit [DecidableEq Key] in
/-- Two keyed tables with the same rows are one list when they are sorted by the key. -/
theorem Unique.mergeSort_eq (le : Key → Key → Bool) {rows rows' : List Row} (h : Unique key rows)
    (h' : Unique key rows')
    (hmem : ∀ r, r ∈ rows ↔ r ∈ rows') (htrans : ∀ a b c, le a b → le b c → le a c)
    (htotal : ∀ a b, le a b ∨ le b a) (hantisymm : ∀ a b, le a b → le b a → a = b) :
    rows.mergeSort (fun r r' => le (key r) (key r')) = rows'.mergeSort (fun r r' => le (key r) (key r')) := by
  have hperm : rows.Perm rows' :=
    (List.perm_ext_iff_of_nodup (List.Nodup.of_map key h) (List.Nodup.of_map key h')).mpr hmem
  have hsorted : ∀ xs : List Row, (xs.mergeSort fun r r' => le (key r) (key r')).Pairwise
      fun r r' => le (key r) (key r') :=
    List.pairwise_mergeSort (fun a b c => htrans _ _ _) fun a b => by simpa using htotal _ _
  have hboth : (rows.mergeSort fun r r' => le (key r) (key r')).Perm
      (rows'.mergeSort fun r r' => le (key r) (key r')) :=
    (List.mergeSort_perm rows _).trans (hperm.trans (List.mergeSort_perm rows' _).symm)
  refine hboth.eq_of_pairwise (fun a b ha hb hab hba => ?_) (hsorted rows) (hsorted rows')
  refine h.eq_of_key_eq (List.mem_mergeSort.mp ha) ?_ (hantisymm _ _ hab hba)
  exact (hmem b).mpr (List.mem_mergeSort.mp hb)

end Sorting

end KeyedTable
