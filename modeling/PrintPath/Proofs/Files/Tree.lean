import Mathlib.Data.List.Basic
import PrintPath.Files.Tree

/-!
# Written files are read back

Writing puts a file where the path leads to. The path does not go through that location,
so afterwards it leads there again.
-/

namespace PrintPath

/-- A computation that goes well has a first step that goes well. -/
theorem exists_ok_of_bind {ε α β : Type} {x : Except ε α} {f : α → Except ε β} {b : β}
    (h : x >>= f = .ok b) : ∃ a, x = .ok a ∧ f a = .ok b := by
  cases x with
  | error e => cases h
  | ok a => exact ⟨a, rfl, h⟩

namespace Files

/-- What was written to a path is read from it. -/
def ReadsBack {σ : Type} (read : σ → Reader) (write : Writer σ) : Prop :=
  ∀ path bytes files files', write path bytes files = (.ok (), files') →
    read files' path = .ok bytes

namespace Tree

variable {t : Tree} {location : List String} {entry : Entry}

/-! ## Entries -/

theorem find?_put_self (below : leadsUp location = false) :
    (t.put location entry).find? location = some entry := by
  unfold find? put
  rw [below]
  simp

theorem find?_put_of_ne {other : List String} (h : other ≠ location) :
    (t.put location entry).find? other = t.find? other := by
  have kept : ∀ es : List (List String × Entry),
      (es.filter (·.1 != location)).lookup other = es.lookup other := by
    intro es
    induction es with
    | nil => rfl
    | cons e es ih =>
        by_cases same : e.1 = location
        · have elsewhere : (other == e.1) = false := by simpa [same] using h
          rw [List.filter_cons_of_neg (by simp [same]), ih, List.lookup_cons, elsewhere]
        · rw [List.filter_cons_of_pos (by simpa using same), List.lookup_cons, List.lookup_cons, ih]
  unfold find? put
  dsimp only
  rw [List.lookup_cons, beq_eq_false_iff_ne.mpr h, kept]

/-! ## Ways -/

theorem follow_eq_ok_iff {here place : Place} {name : String} :
    t.follow here name = .ok place ↔
      here.entry = .directory ∧ name.utf8ByteSize ≤ longestName ∧
        t.find? (advance here.location name) = some place.entry ∧
        place.location = advance here.location name := by
  obtain ⟨location, entry⟩ := place
  unfold follow
  cases here.entry with
  | file bytes => simp
  | directory =>
      dsimp only
      split_ifs with long
      · simp [Nat.not_le.mpr long]
      · cases found : t.find? (advance here.location name) with
        | none => simp
        | some entry' => simp [Nat.not_lt.mp long, and_comm, eq_comm]

/-- A way to a directory goes through directories only. -/
theorem directory_of_foldlM_follow {here place : Place} {names : List String}
    (h : names.foldlM t.follow here = .ok place) (directory : place.entry = .directory) :
    here.entry = .directory := by
  cases names with
  | nil =>
      cases h
      exact directory
  | cons name names =>
      rw [List.foldlM_cons] at h
      cases first : t.follow here name with
      | error e =>
          rw [first] at h
          cases h
      | ok next => exact (follow_eq_ok_iff.mp first).1

/-- A way to a directory does not go through a location where no directory is, so it
does not change with what is there. -/
theorem foldlM_follow_put (other : t.find? location ≠ some .directory) {here place : Place}
    {names : List String} (h : names.foldlM t.follow here = .ok place)
    (directory : place.entry = .directory) :
    names.foldlM (t.put location entry).follow here = .ok place := by
  induction names generalizing here with
  | nil => exact h
  | cons name names ih =>
      rw [List.foldlM_cons] at h ⊢
      cases first : t.follow here name with
      | error e =>
          rw [first] at h
          cases h
      | ok next =>
          rw [first] at h
          obtain ⟨start, short, found, arrived⟩ := follow_eq_ok_iff.mp first
          -- The way goes on from here, so this is a directory and not the changed location.
          have open' : next.entry = .directory := directory_of_foldlM_follow h directory
          have elsewhere : advance here.location name ≠ location := by
            rintro rfl
            exact other (found.trans (congrArg some open'))
          have same : (t.put location entry).follow here name = .ok next :=
            follow_eq_ok_iff.mpr ⟨start, short, (find?_put_of_ne elsewhere).trans found, arrived⟩
          rw [same]
          exact ih h

/-! ## Writing -/

/-- A write that goes well puts a file below a directory that the path leads to. -/
theorem put_of_write {path : String} {bytes : ByteArray} {t' : Tree}
    (h : t.write path bytes = .ok t') :
    checkPath path = .ok () ∧ endsInSlash path = false ∧ ∃ above name,
      names path = (names path).dropLast ++ [name] ∧ name.utf8ByteSize ≤ longestName ∧
        t.walk path (names path).dropLast = .ok above ∧ above.entry = .directory ∧
        t.find? (advance above.location name) ≠ some .directory ∧
        t' = t.put (advance above.location name) (.file bytes) := by
  unfold write at h
  obtain ⟨_, checked, h⟩ := exists_ok_of_bind h
  cases last : (names path).getLast? with
  | none =>
      rw [last] at h
      cases h
  | some name =>
      rw [last] at h
      obtain ⟨above, walked, h⟩ := exists_ok_of_bind h
      have split : names path = (names path).dropLast ++ [name] := by
        rw [List.dropLast_append_getLast? name last]
      cases directory : above.entry with
      | file _ =>
          rw [directory] at h
          cases h
      | directory =>
          rw [directory] at h
          dsimp only at h
          split_ifs at h with named long
          have noSlash : endsInSlash path = false := by
            simpa using (not_or.mp named).1
          refine ⟨checked, noSlash, above, name, split, Nat.not_lt.mp long, walked,
            directory, ?_⟩
          split at h
          · cases h
          · next free =>
              cases h
              exact ⟨free, rfl⟩

/-- **A written file is read back.** -/
theorem readsBack : ReadsBack read writer := by
  intro path bytes t t' h
  have written : t.write path bytes = .ok t' := by
    unfold writer at h
    cases result : t.write path bytes with
    | ok t'' =>
        rw [result] at h
        cases h
        rfl
    | error e =>
        rw [result] at h
        cases h
  obtain ⟨checked, noSlash, above, name, split, short, walked, directory, free, rfl⟩ :=
    put_of_write written
  have below : leadsUp (advance above.location name) = false := by
    by_contra up
    exact free (if_pos (by simpa using up))
  have there : (t.put (advance above.location name) (.file bytes)).walk path (names path) =
      .ok ⟨advance above.location name, .file bytes⟩ := by
    unfold walk
    rw [split, List.foldlM_append, foldlM_follow_put free walked directory]
    have arrives : (t.put (advance above.location name) (.file bytes)).follow above name =
        .ok ⟨advance above.location name, .file bytes⟩ :=
      follow_eq_ok_iff.mpr ⟨directory, short, find?_put_self below, rfl⟩
    dsimp only [bind, Except.bind]
    rw [List.foldlM_cons, arrives]
    rfl
  unfold read openAt
  rw [checked]
  dsimp only [bind, Except.bind]
  rw [there]
  dsimp only
  rw [noSlash]
  rfl

end Tree

end Files

end PrintPath
