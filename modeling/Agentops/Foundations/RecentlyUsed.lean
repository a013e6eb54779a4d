import Agentops.Foundations.KeyedMaps
import Mathlib.Data.Fintype.Card

/-!
# Caches of recently used entries

A cache keeps a bounded number of entries, those used last. A call of a function behind a cache takes the entry of
its key, and computes one only if there is none; a computation that fails leaves no entry. A cache with room for every
key never gives up an entry, so that it is a map to which calls add.
-/

/-- The entries of a cache, the one used last at the end. -/
structure RecentlyUsed (K V : Type*) (capacity : ℕ) where
  entries : List (K × V)
  nodup : (entries.map Prod.fst).Nodup
  bounded : entries.length ≤ capacity

namespace RecentlyUsed

variable {K V S E : Type*} {capacity : ℕ}

/-- A cache without entries. -/
def empty : RecentlyUsed K V capacity := ⟨[], List.nodup_nil, Nat.zero_le capacity⟩

variable [DecidableEq K]

/-- The value that is kept for a key. -/
def get? (cache : RecentlyUsed K V capacity) : K → Option V := KeyedTable.toMap Prod.fst Prod.snd cache.entries

/-- An empty cache keeps nothing. -/
@[simp] theorem get?_empty (key : K) : (empty : RecentlyUsed K V capacity).get? key = none := rfl

/-- The entries of the other keys. -/
def others (cache : RecentlyUsed K V capacity) (key : K) : List (K × V) := cache.entries.filter fun e => e.1 ≠ key

/-- The key is none of the others, and they differ among themselves. -/
theorem nodup_others (cache : RecentlyUsed K V capacity) (key : K) :
    (key :: (cache.others key).map Prod.fst).Nodup := by
  apply List.nodup_cons.mpr
  constructor
  · simp [others]
  · exact cache.nodup.sublist (List.filter_sublist.map Prod.fst)

/-- The entry of a key becomes the one used last, and the entries that are too many go, oldest first. -/
def use (cache : RecentlyUsed K V capacity) (key : K) (value : V) : RecentlyUsed K V capacity where
  entries := (cache.others key ++ [(key, value)]).drop ((cache.others key).length + 1 - capacity)
  nodup := by
    have hall : ((cache.others key ++ [(key, value)]).map Prod.fst).Nodup := by
      rw [List.map_append]
      exact List.nodup_append_comm.mp (cache.nodup_others key)
    exact hall.sublist ((List.drop_sublist _ _).map Prod.fst)
  bounded := by
    rw [List.length_drop, List.length_append, List.length_singleton]
    omega

/-- With room for every key nothing has to go. -/
theorem entries_use [Fintype K] (hroom : Fintype.card K ≤ capacity) (cache : RecentlyUsed K V capacity) (key : K)
    (value : V) : (cache.use key value).entries = cache.others key ++ [(key, value)] := by
  have hkeys := (cache.nodup_others key).length_le_card
  rw [List.length_cons, List.length_map] at hkeys
  have hnone : (cache.others key).length + 1 - capacity = 0 := by omega
  change (cache.others key ++ [(key, value)]).drop ((cache.others key).length + 1 - capacity) = _
  rw [hnone, List.drop_zero]

/-- So the cache is the map with the value at its key. -/
theorem get?_use [Fintype K] (hroom : Fintype.card K ≤ capacity) (cache : RecentlyUsed K V capacity) (key : K)
    (value : V) : (cache.use key value).get? = Function.update cache.get? key (some value) := by
  have hnew : ((key, value) : K × V).1 ∉ (cache.others key).map Prod.fst :=
    (List.nodup_cons.mp (cache.nodup_others key)).1
  rw [get?, entries_use hroom, KeyedTable.toMap_append hnew, others, KeyedTable.toMap_delete, Function.update_idem]
  rfl

/-- A call of a function behind a cache. The function may change a state, whether it fails or not. -/
def call (f : K → S → Except E V × S) (key : K) (cache : RecentlyUsed K V capacity) (s : S) :
    Except E V × RecentlyUsed K V capacity × S :=
  match cache.get? key with
  | some value => (.ok value, cache.use key value, s)
  | none =>
    match f key s with
    | (.ok value, s') => (.ok value, cache.use key value, s')
    | (.error e, s') => (.error e, cache, s')

/-- What a call of a function behind a cache can do: `entry` finds its value, `computed` computes it, and `failed`
leaves the cache as it is. -/
inductive Called (f : K → S → Except E V × S) (key : K) (cache : RecentlyUsed K V capacity) (s : S) :
    Except E V × RecentlyUsed K V capacity × S → Prop
  | entry (value : V) (cache' : RecentlyUsed K V capacity) (hget : cache.get? key = some value)
      (hsame : cache'.get? = cache.get?) : Called f key cache s (.ok value, cache', s)
  | computed (value : V) (cache' : RecentlyUsed K V capacity) (s' : S) (hget : cache.get? key = none)
      (hf : f key s = (.ok value, s')) (hadd : cache'.get? = Function.update cache.get? key (some value)) :
      Called f key cache s (.ok value, cache', s')
  | failed (e : E) (s' : S) (hget : cache.get? key = none) (hf : f key s = (.error e, s')) :
      Called f key cache s (.error e, cache, s')

/-- Every call is one of these. -/
theorem called [Fintype K] (hroom : Fintype.card K ≤ capacity) (f : K → S → Except E V × S) (key : K)
    (cache : RecentlyUsed K V capacity) (s : S) : Called f key cache s (call f key cache s) := by
  unfold call
  cases hget : cache.get? key with
  | some value =>
    apply Called.entry value _ hget
    rw [get?_use hroom, ← hget, Function.update_eq_self]
  | none =>
    rcases hf : f key s with ⟨_ | value, s'⟩
    · exact Called.failed _ s' hget hf
    · exact Called.computed value _ s' hget hf (get?_use hroom cache key value)

/-- What a function does holds of what it does through a cache, if it holds of finding an entry. Entries are still valid
where the function has been executed. -/
theorem call_rule [Fintype K] (hroom : Fintype.card K ≤ capacity) (Entry : S → K → V → Prop)
    (Does : Except E V → S → Prop) {f : K → S → Except E V × S} {key : K} {cache : RecentlyUsed K V capacity} {s : S}
    (hentries : ∀ k value, cache.get? k = some value → Entry s k value)
    (hfound : ∀ value, Entry s key value → Does (.ok value) s) (hf : Does (f key s).1 (f key s).2)
    (hnew : ∀ value, (f key s).1 = .ok value → Entry (f key s).2 key value)
    (hkept : ∀ k value, Entry s k value → Entry (f key s).2 k value) :
    Does (call f key cache s).1 (call f key cache s).2.2 ∧
      ∀ k value, (call f key cache s).2.1.get? k = some value → Entry (call f key cache s).2.2 k value := by
  have hcalled := called hroom f key cache s
  generalize call f key cache s = r at hcalled ⊢
  cases hcalled with
  | entry value cache' hget hsame =>
    refine ⟨hfound value (hentries key value hget), fun k value' hk => ?_⟩
    exact hentries k value' (hsame ▸ hk)
  | computed value cache' s' hget hrun hadd =>
    rw [hrun] at hf hnew hkept
    refine ⟨hf, fun k value' hk => ?_⟩
    simp only [hadd] at hk
    by_cases hkey : k = key
    · subst hkey
      rw [Function.update_self] at hk
      exact Option.some.inj hk ▸ hnew value rfl
    · rw [Function.update_of_ne hkey] at hk
      exact hkept k value' (hentries k value' hk)
  | failed e s' hget hrun =>
    rw [hrun] at hf hkept
    exact ⟨hf, fun k value' hk => hkept k value' (hentries k value' hk)⟩

section Objects

/-- Something that was made. The number says which object it is of those made for one cache. -/
structure Numbered (Made : Type*) where
  serial : ℕ
  made : Made
  deriving DecidableEq, Repr

variable {Made : Type*} (body : K → Except E Made)

omit [DecidableEq K] in
/-- A function that makes a new object for a key. The objects made so far are the state. -/
def making (key : K) (log : List (K × Numbered Made)) : Except E (Numbered Made) × List (K × Numbered Made) :=
  match body key with
  | .ok made => (.ok ⟨log.length, made⟩, log ++ [(key, ⟨log.length, made⟩)])
  | .error e => (.error e, log)

/-- A call for a key beside the objects made so far: it finds the object of the key, or makes the first one, or fails
to. A failure leaves nothing behind. -/
inductive Served (key : K) (log : List (K × Numbered Made)) : Except E (Numbered Made) → List (K × Numbered Made) → Prop
  | found (object : Numbered Made) (hmem : (key, object) ∈ log) : Served key log (.ok object) log
  | made (made : Made) (hnew : key ∉ log.map Prod.fst) (hbody : body key = .ok made) :
      Served key log (.ok ⟨log.length, made⟩) (log ++ [(key, ⟨log.length, made⟩)])
  | failed (e : E) (hnew : key ∉ log.map Prod.fst) (hbody : body key = .error e) : Served key log (.error e) log

/-- At most one object was made for a key, and the cache has all that were made. -/
structure OnceEach (cache : RecentlyUsed K (Numbered Made) capacity) (log : List (K × Numbered Made)) : Prop where
  unique : KeyedTable.Unique Prod.fst log
  agree : cache.get? = KeyedTable.toMap Prod.fst Prod.snd log

variable {body} {cache : RecentlyUsed K (Numbered Made) capacity} {log log' : List (K × Numbered Made)} {key : K}
  {answer : Except E (Numbered Made)}

omit [DecidableEq K] in
/-- No object is lost. -/
theorem Served.subset (h : Served body key log answer log') : log ⊆ log' := by
  cases h with
  | found object hmem => exact List.Subset.refl log
  | made made hnew hbody => exact List.subset_append_left log _
  | failed e hnew hbody => exact List.Subset.refl log

omit [DecidableEq K] in
/-- The object that a call gets is one that was made for its key. -/
theorem Served.mem {object : Numbered Made} (h : Served body key log (.ok object) log') : (key, object) ∈ log' := by
  cases h with
  | found _ hmem => exact hmem
  | made made hnew hbody => exact List.mem_append_right log List.mem_cons_self

/-- At first nothing was made. -/
theorem onceEach_empty : OnceEach (empty : RecentlyUsed K (Numbered Made) capacity) [] := ⟨List.nodup_nil, rfl⟩

/-- A key without an entry is one for which nothing was made. -/
theorem OnceEach.notMem_of_get?_eq_none (h : OnceEach cache log) (hget : cache.get? key = none) :
    key ∉ log.map Prod.fst := by
  rw [h.agree, KeyedTable.toMap, Option.map_eq_none_iff] at hget
  exact KeyedTable.find?_eq_none_iff.mp hget

/-- Behind a cache with room for every key at most one object is made for a key. -/
theorem OnceEach.call [Fintype K] (hroom : Fintype.card K ≤ capacity) (h : OnceEach cache log)
    (body : K → Except E Made) (key : K) :
    OnceEach (call (making body) key cache log).2.1 (call (making body) key cache log).2.2 ∧
      Served body key log (call (making body) key cache log).1 (call (making body) key cache log).2.2 := by
  have hcalled := called hroom (making body) key cache log
  generalize RecentlyUsed.call (making body) key cache log = r at hcalled ⊢
  cases hcalled with
  | entry object cache' hget hsame =>
    have hmem : (key, object) ∈ log := by
      rw [h.agree, h.unique.toMap_eq_some_iff] at hget
      obtain ⟨⟨_, _⟩, hin, rfl, rfl⟩ := hget
      exact hin
    exact ⟨⟨h.unique, hsame.trans h.agree⟩, .found object hmem⟩
  | computed object cache' log' hget hrun hadd =>
    have hnew : key ∉ log.map Prod.fst := h.notMem_of_get?_eq_none hget
    cases hbody : body key with
    | error e => simp [making, hbody] at hrun
    | ok made =>
      rw [making, hbody] at hrun
      obtain ⟨hobject, rfl⟩ := Prod.ext_iff.mp hrun
      obtain rfl : ⟨log.length, made⟩ = object := Except.ok.inj hobject
      refine ⟨⟨h.unique.append hnew, ?_⟩, .made made hnew hbody⟩
      rw [hadd, h.agree, KeyedTable.toMap_append hnew]
  | failed e log' hget hrun =>
    cases hbody : body key with
    | ok made => simp [making, hbody] at hrun
    | error e' =>
      rw [making, hbody] at hrun
      obtain ⟨he, rfl⟩ := Prod.ext_iff.mp hrun
      obtain rfl : e' = e := Except.error.inj he
      exact ⟨h, .failed e' (h.notMem_of_get?_eq_none hget) hbody⟩

end Objects

end RecentlyUsed
