/-! Finite maps from names, kept in the order of the names.
The order is that of code points, which is also that of the bytes in UTF-8. -/

namespace StackLexer

namespace Entries

variable {α : Type}

def insert (name : String) (value : α) : List (String × α) → List (String × α)
  | [] => [(name, value)]
  | (n, v) :: rest =>
    if name < n then (name, value) :: (n, v) :: rest
    else if name = n then (name, value) :: rest
    else (n, v) :: insert name value rest

/-- Entries in the order of their names. Of two with one name the later one counts. -/
def sort (entries : List (String × α)) : List (String × α) :=
  entries.foldl (fun sorted e => insert e.1 e.2 sorted) []

/-- Each name is before those that follow, so that no name comes twice. -/
def Sorted (entries : List (String × α)) : Prop := entries.Pairwise (fun a b => a.1 < b.1)

theorem mem_insert {name : String} {value : α} {entries : List (String × α)} {e : String × α}
    (h : e ∈ insert name value entries) : e = (name, value) ∨ e ∈ entries := by
  induction entries with
  | nil => simpa [insert] using h
  | cons head rest ih =>
    obtain ⟨n, v⟩ := head
    simp only [insert] at h
    split at h
    · simpa using h
    · split at h
      · rcases List.mem_cons.1 h with h | h
        · exact .inl h
        · exact .inr (List.mem_cons_of_mem _ h)
      · rcases List.mem_cons.1 h with h | h
        · exact .inr (h ▸ List.mem_cons_self)
        · exact (ih h).imp id (List.mem_cons_of_mem _)

theorem sorted_insert {name : String} {value : α} {entries : List (String × α)}
    (h : Sorted entries) : Sorted (insert name value entries) := by
  induction entries with
  | nil => simp [insert, Sorted]
  | cons head rest ih =>
    obtain ⟨n, v⟩ := head
    obtain ⟨first, others⟩ := List.pairwise_cons.1 h
    simp only [insert]
    split
    · rename_i before
      refine List.pairwise_cons.2 ⟨fun e he => ?_, h⟩
      rcases List.mem_cons.1 he with rfl | he
      · exact before
      · exact String.lt_trans before (first e he)
    · split
      · rename_i same
        subst same
        exact List.pairwise_cons.2 ⟨first, others⟩
      · rename_i notBefore notSame
        refine List.pairwise_cons.2 ⟨fun e he => ?_, ih others⟩
        rcases mem_insert he with rfl | he
        · rcases Std.le_total (a := n) (b := name) with le | le
          · exact (Std.lt_of_le_of_ne le (Ne.symm notSame))
          · exact absurd (Std.lt_of_le_of_ne le notSame) notBefore
        · exact first e he

theorem sorted_sort (entries : List (String × α)) : Sorted (sort entries) := by
  have go : ∀ (sorted : List (String × α)), Sorted sorted →
      Sorted (entries.foldl (fun sorted e => insert e.1 e.2 sorted) sorted) := by
    induction entries with
    | nil => exact fun _ h => h
    | cons e rest ih => exact fun _ h => ih _ (sorted_insert h)
  exact go [] (by simp [Sorted])

end Entries

structure Dictionary (α : Type) where
  entries : List (String × α) := []
  sorted : Entries.Sorted entries := by simp [Entries.Sorted]

namespace Dictionary

variable {α : Type}

instance : Inhabited (Dictionary α) := ⟨{}⟩

instance [BEq α] : BEq (Dictionary α) := ⟨fun a b => a.entries == b.entries⟩

def insert (d : Dictionary α) (name : String) (value : α) : Dictionary α :=
  ⟨Entries.insert name value d.entries, Entries.sorted_insert d.sorted⟩

def ofEntries (entries : List (String × α)) : Dictionary α :=
  ⟨Entries.sort entries, Entries.sorted_sort entries⟩

def get? (d : Dictionary α) (name : String) : Option α := d.entries.lookup name

def contains (d : Dictionary α) (name : String) : Bool := (d.get? name).isSome

def names (d : Dictionary α) : List String := d.entries.map Prod.fst

end Dictionary

end StackLexer
