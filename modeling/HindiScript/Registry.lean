/-!
# Registries

Values under names, in the order in which the names first came. A name that comes again keeps its place
and takes the new value, so that no name comes twice: a `Registry` carries this with it. Main statements:
`find?_insert`, what is found after a value is put in, `names_insert`, which names there are then, and
`entries_insert`, that a new name comes last.
-/

namespace HindiScript

/-- Values under names, in the order in which the names first came. -/
@[ext] structure Registry (α : Type) where
  entries : List (String × α) := []
  /-- No name comes twice. -/
  nodup : (entries.map (·.1)).Nodup := by exact List.nodup_nil
  deriving DecidableEq, Repr

namespace Registry

variable {α : Type}

/-- The entries with one put in: a `name` that is there keeps its place and takes the new value. -/
def putEntry (name : String) (value : α) : List (String × α) → List (String × α)
  | [] => [(name, value)]
  | (name', value') :: rest =>
    if name' = name then (name, value) :: rest else (name', value') :: putEntry name value rest

theorem map_fst_putEntry (name : String) (value : α) (entries : List (String × α)) :
    (putEntry name value entries).map (·.1) =
      if name ∈ entries.map (·.1) then entries.map (·.1) else entries.map (·.1) ++ [name] := by
  induction entries with
  | nil => simp [putEntry]
  | cons e rest ih =>
    obtain ⟨n, v⟩ := e
    by_cases hn : n = name
    · simp [putEntry, hn]
    · simp only [putEntry, hn, if_false, List.map_cons, ih, List.mem_cons, Ne.symm hn, false_or]
      split <;> simp

theorem nodup_putEntry {entries : List (String × α)} (h : (entries.map (·.1)).Nodup) (name : String) (value : α) :
    ((putEntry name value entries).map (·.1)).Nodup := by
  rw [map_fst_putEntry]
  split
  · exact h
  · next hname =>
    rw [List.nodup_append]
    refine ⟨h, List.pairwise_singleton _ name, ?_⟩
    rintro other hother _ hlast rfl
    exact hname (List.mem_singleton.1 hlast ▸ hother)

def empty : Registry α := {}

instance : Inhabited (Registry α) := ⟨empty⟩

/-- The registry with `value` put in under `name`. -/
def insert (r : Registry α) (name : String) (value : α) : Registry α :=
  ⟨putEntry name value r.entries, nodup_putEntry r.nodup name value⟩

def find? (r : Registry α) (name : String) : Option α := r.entries.lookup name

def contains (r : Registry α) (name : String) : Bool := (r.find? name).isSome

/-- The registry of the entries that pass the test `keep`. -/
def filter (keep : String × α → Bool) (r : Registry α) : Registry α :=
  ⟨r.entries.filter keep, r.nodup.sublist (List.filter_sublist.map _)⟩

def erase (r : Registry α) (name : String) : Registry α := r.filter (·.1 ≠ name)

/-- The names, in order. -/
def names (r : Registry α) : List String := r.entries.map (·.1)

/-- The values, in the order of their names. -/
def values (r : Registry α) : List α := r.entries.map (·.2)

def size (r : Registry α) : Nat := r.entries.length

def map {β : Type} (f : α → β) (r : Registry α) : Registry β where
  entries := r.entries.map fun e => (e.1, f e.2)
  nodup := by
    rw [List.map_map]
    exact r.nodup

/-- The entries put in one after the other, so of two with one name the later counts. -/
def ofList (entries : List (String × α)) : Registry α :=
  entries.foldl (fun r (name, value) => r.insert name value) empty

theorem lookup_putEntry (name name' : String) (value : α) (entries : List (String × α)) :
    (putEntry name value entries).lookup name' =
      if name' = name then some value else entries.lookup name' := by
  induction entries with
  | nil =>
    simp only [putEntry, List.lookup_cons, List.lookup_nil]
    grind
  | cons e rest ih =>
    obtain ⟨n, v⟩ := e
    by_cases hn : n = name
    · simp only [putEntry, hn, if_true, List.lookup_cons]
      grind
    · simp only [putEntry, hn, if_false, List.lookup_cons, ih]
      grind

/-- `name` is found as before if `keep` drops none of its entries. -/
theorem lookup_filter {name : String} {keep : String × α → Bool} (h : ∀ value, keep (name, value) = true)
    (entries : List (String × α)) : (entries.filter keep).lookup name = entries.lookup name := by
  induction entries with
  | nil => rfl
  | cons e rest ih =>
    by_cases he : keep e = true
    · rw [List.filter_cons_of_pos he, List.lookup_cons, List.lookup_cons, ih]
    · have hne : (name == e.1) = false := by
        rw [beq_eq_false_iff_ne]
        rintro rfl
        exact he (h e.2)
      rw [List.filter_cons_of_neg he, ih, List.lookup_cons, hne]

theorem find?_insert (r : Registry α) (name name' : String) (value : α) :
    (r.insert name value).find? name' = if name' = name then some value else r.find? name' :=
  lookup_putEntry name name' value r.entries

theorem names_insert (r : Registry α) (name : String) (value : α) :
    (r.insert name value).names = if name ∈ r.names then r.names else r.names ++ [name] :=
  map_fst_putEntry name value r.entries

theorem putEntry_of_not_mem {name : String} {value : α} {entries : List (String × α)}
    (h : name ∉ entries.map (·.1)) : putEntry name value entries = entries ++ [(name, value)] := by
  induction entries with
  | nil => rfl
  | cons e rest ih =>
    obtain ⟨n, v⟩ := e
    simp only [List.map_cons, List.mem_cons, not_or] at h
    simp [putEntry, Ne.symm h.1, ih h.2]

theorem entries_insert {r : Registry α} {name : String} {value : α} (h : name ∉ r.names) :
    (r.insert name value).entries = r.entries ++ [(name, value)] :=
  putEntry_of_not_mem h

/-- Entries with new names are put in one behind the other. -/
theorem entries_foldl_insert {r : Registry α} {entries : List (String × α)}
    (h : (r.names ++ entries.map (·.1)).Nodup) :
    (entries.foldl (fun r entry => r.insert entry.1 entry.2) r).entries = r.entries ++ entries := by
  induction entries generalizing r with
  | nil => simp
  | cons entry rest ih =>
    have hname : entry.1 ∉ r.names := fun hmem => (List.nodup_append.1 h).2.2 _ hmem _ List.mem_cons_self rfl
    have hnames : (r.insert entry.1 entry.2).names = r.names ++ [entry.1] := by rw [names_insert, if_neg hname]
    rw [List.foldl_cons, ih (by simpa [hnames] using h), entries_insert hname, List.append_assoc]
    rfl

/-- A registry is what `insert` makes of its entries. -/
theorem foldl_insert_entries (r : Registry α) :
    r.entries.foldl (fun r entry => r.insert entry.1 entry.2) {} = r :=
  Registry.ext (entries_foldl_insert r.nodup)

theorem find?_eq_none_iff {r : Registry α} {name : String} : r.find? name = none ↔ name ∉ r.names := by
  simp only [find?, names, List.lookup_eq_none_iff, List.mem_map, not_exists, not_and, bne_iff_ne, ne_eq]
  exact ⟨fun h e he hn => h e he hn.symm, fun h e he hn => h e he hn.symm⟩

theorem find?_map {β : Type} (f : α → β) (r : Registry α) (name : String) :
    (r.map f).find? name = (r.find? name).map f := by
  simp only [find?, map]
  generalize r.entries = entries
  induction entries with
  | nil => rfl
  | cons e rest ih =>
    obtain ⟨n, v⟩ := e
    simp only [List.map_cons, List.lookup_cons, ih]
    cases name == n <;> rfl

@[simp] theorem size_map {β : Type} (f : α → β) (r : Registry α) : (r.map f).size = r.size :=
  List.length_map _

end Registry

end HindiScript
