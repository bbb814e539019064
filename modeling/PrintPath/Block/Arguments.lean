/-!
# Arguments of a block

A finite map from letters to numbers, kept as a list that ascends by letter.
The list is determined by the map, so equal maps are equal lists.
-/

namespace PrintPath

/-- Binds a letter, in place of an earlier binding if there is one. -/
def insertEntry (k : Char) (v : Float) : List (Char × Float) → List (Char × Float)
  | [] => [(k, v)]
  | e :: rest =>
    if k < e.1 then (k, v) :: e :: rest
    else if k = e.1 then (k, v) :: rest
    else e :: insertEntry k v rest

theorem mem_insertEntry {k : Char} {v : Float} {entries : List (Char × Float)}
    {e : Char × Float} (h : e ∈ insertEntry k v entries) : e = (k, v) ∨ e ∈ entries := by
  induction entries with
  | nil => simpa [insertEntry] using h
  | cons first rest ih =>
    simp only [insertEntry] at h
    split at h
    · simpa using h
    · split at h
      · simp only [List.mem_cons] at h ⊢
        exact h.imp id Or.inr
      · simp only [List.mem_cons] at h ⊢
        rcases h with h | h
        · exact Or.inr (Or.inl h)
        · exact (ih h).imp id Or.inr

theorem ascending_insertEntry (k : Char) (v : Float) {entries : List (Char × Float)}
    (h : entries.Pairwise (·.1 < ·.1)) :
    (insertEntry k v entries).Pairwise (·.1 < ·.1) := by
  induction entries with
  | nil => simp [insertEntry]
  | cons first rest ih =>
    rw [List.pairwise_cons] at h
    obtain ⟨below, ascending⟩ := h
    simp only [insertEntry]
    split
    · next lt =>
      refine List.pairwise_cons.2 ⟨fun e he => ?_, List.pairwise_cons.2 ⟨below, ascending⟩⟩
      rcases List.mem_cons.1 he with rfl | he
      · exact lt
      · exact Char.lt_trans lt (below e he)
    · next notLt =>
      split
      · next eq => exact List.pairwise_cons.2 ⟨fun e he => eq ▸ below e he, ascending⟩
      · next ne =>
        refine List.pairwise_cons.2 ⟨fun e he => ?_, ih ascending⟩
        rcases mem_insertEntry he with rfl | he
        · exact Classical.byContradiction fun notGt =>
            ne (Char.le_antisymm (Char.not_lt.1 notGt) (Char.not_lt.1 notLt))
        · exact below e he

structure Arguments where
  entries : List (Char × Float)
  ascending : entries.Pairwise (·.1 < ·.1)
deriving DecidableEq

namespace Arguments

def empty : Arguments :=
  ⟨[], List.Pairwise.nil⟩

def insert (args : Arguments) (k : Char) (v : Float) : Arguments :=
  ⟨insertEntry k v args.entries, ascending_insertEntry k v args.ascending⟩

def get? (args : Arguments) (k : Char) : Option Float :=
  args.entries.lookup k

theorem lookup_cons_eq (k k' : Char) (v : Float) (entries : List (Char × Float)) :
    ((k, v) :: entries).lookup k' = if k' = k then some v else entries.lookup k' := by
  rw [List.lookup_cons]
  split
  · next h => rw [if_pos (beq_iff_eq.1 h)]
  · next h => rw [if_neg (beq_eq_false_iff_ne.1 h)]

theorem lookup_insertEntry (k k' : Char) (v : Float) (entries : List (Char × Float)) :
    (insertEntry k v entries).lookup k' = if k' = k then some v else entries.lookup k' := by
  induction entries with
  | nil => exact lookup_cons_eq k k' v []
  | cons first rest ih =>
    obtain ⟨letter, value⟩ := first
    simp only [insertEntry]
    split
    · exact lookup_cons_eq k k' v _
    · split
      · next eq =>
        subst eq
        simp only [lookup_cons_eq]
        split <;> rfl
      · next ne =>
        simp only [lookup_cons_eq, ih]
        split
        · next h =>
          subst h
          rw [if_neg (fun eq => ne eq.symm)]
        · rfl

@[simp] theorem get?_empty (k : Char) : empty.get? k = none := rfl

theorem get?_insert (args : Arguments) (k k' : Char) (v : Float) :
    (args.insert k v).get? k' = if k' = k then some v else args.get? k' :=
  lookup_insertEntry k k' v args.entries

end Arguments

end PrintPath
