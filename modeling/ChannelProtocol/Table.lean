-- Tables: named values in the order in which their names came, no name twice.
-- A walk along names that only goes on to new ones comes to an end.

namespace ChannelProtocol

structure Table (α : Type) where
  entries : List (String × α)
  distinct : (entries.map Prod.fst).Nodup

namespace Table

variable {α : Type}

def empty : Table α := ⟨[], List.Pairwise.nil⟩

instance : Inhabited (Table α) := ⟨empty⟩

def names (table : Table α) : List String := table.entries.map Prod.fst

def size (table : Table α) : Nat := table.entries.length

def get? (table : Table α) (name : String) : Option α := table.entries.lookup name

def contains (table : Table α) (name : String) : Bool := (table.get? name).isSome

/-! ## Looking up -/

theorem lookup_isSome_iff (entries : List (String × α)) (name : String) :
    (entries.lookup name).isSome ↔ name ∈ entries.map Prod.fst := by
  simp [List.lookup_isSome_iff, List.mem_map]

theorem contains_iff (table : Table α) (name : String) :
    table.contains name ↔ name ∈ table.names :=
  lookup_isSome_iff table.entries name

theorem get?_eq_none_iff (table : Table α) (name : String) :
    table.get? name = none ↔ name ∉ table.names := by
  rw [← contains_iff, contains]
  cases table.get? name <;> simp

theorem lookup_eq_some_iff {entries : List (String × α)} (distinct : (entries.map Prod.fst).Nodup)
    (name : String) (value : α) : entries.lookup name = some value ↔ (name, value) ∈ entries := by
  rw [List.lookup_eq_some_iff]
  constructor
  · rintro ⟨front, back, rfl, -⟩
    simp
  · intro mem
    obtain ⟨front, back, rfl⟩ := List.append_of_mem mem
    rw [List.map_append, List.nodup_append] at distinct
    refine ⟨front, back, rfl, fun entry within => ?_⟩
    have apart := distinct.2.2 entry.1 (List.mem_map_of_mem within) name (by simp)
    simpa using Ne.symm apart

/-- A table holds a value under a name exactly if the two are one of its entries. -/
theorem get?_eq_some_iff (table : Table α) (name : String) (value : α) :
    table.get? name = some value ↔ (name, value) ∈ table.entries :=
  lookup_eq_some_iff table.distinct name value

/-! ## Changing a table -/

def push (table : Table α) (name : String) (value : α) (fresh : name ∉ table.names) : Table α where
  entries := table.entries ++ [(name, value)]
  distinct := by
    have distinct := table.distinct
    have fresh : ∀ other ∈ table.entries.map Prod.fst, other ≠ name :=
      fun other mem eq => fresh (eq ▸ mem)
    simp only [List.map_append, List.map_cons, List.map_nil, List.Nodup, List.pairwise_append]
    refine ⟨distinct, by simp, ?_⟩
    intro a ha b hb
    rw [List.mem_singleton.mp hb]
    exact fresh a ha

/-- An entry with its value replaced if it has the name. -/
def replaceEntry (name : String) (value : α) (entry : String × α) : String × α :=
  if entry.1 = name then (entry.1, value) else entry

theorem replaceEntry_fst (name : String) (value : α) (entry : String × α) :
    (replaceEntry name value entry).1 = entry.1 := by
  unfold replaceEntry; split <;> rfl

theorem lookup_map_replaceEntry (entries : List (String × α)) (name other : String) (value : α) :
    (entries.map (replaceEntry name value)).lookup other =
      if other = name then (entries.lookup other).map (fun _ => value)
      else entries.lookup other := by
  induction entries with
  | nil => simp
  | cons entry rest ih =>
    obtain ⟨first, held⟩ := entry
    by_cases ho : other = first
    · subst ho
      by_cases h : other = name <;> simp [replaceEntry, h]
    · have ho' : (other == first) = false := by simpa using ho
      have pass (v : α) (l : List (String × α)) :
          ((first, v) :: l).lookup other = l.lookup other := by
        simp only [List.lookup_cons, ho']
      have split : replaceEntry name value (first, held) =
          (first, if first = name then value else held) := by
        unfold replaceEntry; split <;> rfl
      rw [List.map_cons, split, pass, pass, ih]

/-- The table with another value under a name that it has. -/
def replace (table : Table α) (name : String) (value : α) : Table α where
  entries := table.entries.map (replaceEntry name value)
  distinct := by
    have same : Prod.fst ∘ replaceEntry name value = (Prod.fst : String × α → String) :=
      funext fun entry => replaceEntry_fst name value entry
    rw [List.map_map, same]
    exact table.distinct

/-- The table with a value under a name. A name that it has keeps its place. -/
def insert (table : Table α) (name : String) (value : α) : Table α :=
  if known : name ∈ table.names then table.replace name value else table.push name value known

def erase (table : Table α) (name : String) : Table α where
  entries := table.entries.filter fun entry => entry.1 != name
  distinct := table.distinct.sublist (List.filter_sublist.map Prod.fst)

/-! ## What a change does to the names and to what is found -/

@[simp]
theorem names_push (table : Table α) (name : String) (value : α) (fresh : name ∉ table.names) :
    (table.push name value fresh).names = table.names ++ [name] := by
  simp [names, push]

@[simp]
theorem names_replace (table : Table α) (name : String) (value : α) :
    (table.replace name value).names = table.names := by
  simp only [names, replace, List.map_map]
  exact List.map_congr_left fun entry _ => replaceEntry_fst name value entry

/-- A new name goes to the end, and a known one keeps its place. -/
theorem names_insert (table : Table α) (name : String) (value : α) :
    (table.insert name value).names =
      if name ∈ table.names then table.names else table.names ++ [name] := by
  unfold insert
  split <;> simp

/-- After an insertion the name has the value, and no other name has another than before. -/
theorem get?_insert (table : Table α) (name other : String) (value : α) :
    (table.insert name value).get? other =
      if other = name then some value else table.get? other := by
  unfold insert
  split
  · rename_i known
    have held := (lookup_isSome_iff table.entries name).mpr known
    obtain ⟨held, eq⟩ := Option.isSome_iff_exists.mp held
    by_cases h : other = name <;> simp_all [get?, replace, lookup_map_replaceEntry]
  · rename_i fresh
    have none := (get?_eq_none_iff table name).mpr fresh
    simp only [get?] at none
    by_cases h : other = name
    · subst h
      simp [get?, push, List.lookup_append, none]
    · have h' : (other == name) = false := by simpa using h
      simp [get?, push, List.lookup_append, List.lookup_cons, h, h']

/-- The table of a list of named values, of which the last with a name counts. -/
def ofList (entries : List (String × α)) : Table α :=
  entries.foldl (fun table entry => table.insert entry.1 entry.2) empty

/-! ## Tables of lists -/

theorem names_foldl_insert (table : Table α) (entries : List (String × α)) :
    (entries.foldl (fun table entry => table.insert entry.1 entry.2) table).names =
      table.names ++ ((entries.map Prod.fst).filter (· ∉ table.names)).eraseDups := by
  induction entries generalizing table with
  | nil => simp
  | cons entry rest ih =>
    rw [List.foldl_cons, ih, names_insert, List.map_cons]
    split
    · rename_i known
      simp [known]
    · rename_i fresh
      have step (names : List String) :
          names.filter (fun name => decide (name ∉ table.names ++ [entry.1])) =
            (names.filter fun name => decide (name ∉ table.names)).filter
              (fun name => !name == entry.1) := by
        rw [List.filter_filter]
        refine List.filter_congr fun name _ => ?_
        by_cases h : name = entry.1 <;> simp [h]
      rw [step, List.filter_cons_of_pos (by simpa using fresh), List.eraseDups_cons,
        List.append_assoc, List.singleton_append]

/-- The table of a list has each of its names once, in the order in which they first came. -/
theorem names_ofList (entries : List (String × α)) :
    (ofList entries).names = (entries.map Prod.fst).eraseDups := by
  unfold ofList
  rw [names_foldl_insert, List.filter_eq_self.mpr (by simp [empty, names])]
  rfl

theorem get?_foldl_insert (table : Table α) (entries : List (String × α)) (name : String) :
    (entries.foldl (fun table entry => table.insert entry.1 entry.2) table).get? name =
      (entries.reverse.lookup name).or (table.get? name) := by
  induction entries generalizing table with
  | nil => simp
  | cons entry rest ih =>
    rw [List.foldl_cons, ih, get?_insert, List.reverse_cons, List.lookup_append, Option.or_assoc]
    obtain ⟨other, value⟩ := entry
    by_cases h : name = other
    · simp [h]
    · have h' : (name == other) = false := by simpa using h
      simp [List.lookup_cons, h, h']

/-- The table of a list gives each name the last of its values. -/
theorem get?_ofList (entries : List (String × α)) (name : String) :
    (ofList entries).get? name = entries.reverse.lookup name := by
  have found := get?_foldl_insert empty entries name
  simpa [ofList, empty, get?] using found

/-- The entries of the table are among those of the list. -/
theorem mem_of_mem_ofList {entries : List (String × α)} {entry : String × α}
    (mem : entry ∈ (ofList entries).entries) : entry ∈ entries := by
  obtain ⟨name, value⟩ := entry
  rw [← get?_eq_some_iff, get?_ofList, List.lookup_eq_some_iff] at mem
  obtain ⟨before, after, same, -⟩ := mem
  rw [← List.mem_reverse, same]
  simp

theorem entries_foldl_insert (table : Table α) (entries : List (String × α))
    (distinct : (table.names ++ entries.map Prod.fst).Nodup) :
    (entries.foldl (fun table entry => table.insert entry.1 entry.2) table).entries =
      table.entries ++ entries := by
  induction entries generalizing table with
  | nil => simp
  | cons entry rest ih =>
    have fresh : entry.1 ∉ table.names := by
      intro known
      rw [List.nodup_append] at distinct
      exact distinct.2.2 _ known entry.1 (by simp) rfl
    have pushed : table.insert entry.1 entry.2 = table.push entry.1 entry.2 fresh := by
      rw [insert, dif_neg fresh]
    rw [List.foldl_cons, pushed, ih]
    · simp [push]
    · rw [names_push, List.append_assoc]
      exact distinct

/-- A list in which no name comes twice is kept as it is. -/
theorem entries_ofList {entries : List (String × α)} (distinct : (entries.map Prod.fst).Nodup) :
    (ofList entries).entries = entries :=
  entries_foldl_insert empty entries distinct

end Table

/-! ## Walks -/

/-- How many members of `all` are not in `seen`. -/
def unvisited (all seen : List String) : Nat := all.countP fun x => !seen.contains x

/-- Fewer are left when more have been seen, one of them for the first time. -/
theorem unvisited_lt {all seen now : List String} {x : String} (more : ∀ y ∈ seen, y ∈ now)
    (known : x ∈ all) (fresh : x ∉ seen) (visited : x ∈ now) :
    unvisited all now < unvisited all seen := by
  have le (xs : List String) : unvisited xs now ≤ unvisited xs seen := by
    refine List.countP_mono_left fun y _ h => ?_
    simp only [List.contains_eq_mem, Bool.not_eq_eq_eq_not, Bool.not_true,
      decide_eq_false_iff_not] at h ⊢
    exact fun mem => h (more y mem)
  obtain ⟨before, after, rfl⟩ := List.append_of_mem known
  have left := le before
  have right := le after
  simp only [unvisited, List.countP_append, List.countP_cons, List.contains_eq_mem, fresh, visited,
    decide_true, decide_false, Bool.not_true, Bool.not_false] at left right ⊢
  simp only [Bool.false_eq_true, if_true, if_false]
  omega

end ChannelProtocol
