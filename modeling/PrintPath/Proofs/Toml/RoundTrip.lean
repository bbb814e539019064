import Mathlib.Data.List.Nodup
import PrintPath.Proofs.Toml.Text
import PrintPath.Toml.Reader

/-!
# Reading written TOML

Sections that are written as TOML are read back as they were, if their names are bare
keys and none of them is given twice. The texts in them may be any.
-/

namespace PrintPath.Toml

/-- Sections that TOML can write: bare names, each given once. -/
structure IsTidy (ss : Sections) : Prop where
  names : (ss.map Prod.fst).Nodup
  bare : ∀ s ∈ ss, IsBare s.1
  innerNames : ∀ s ∈ ss, (s.2.map Prod.fst).Nodup
  innerBare : ∀ s ∈ ss, ∀ e ∈ s.2, IsBare e.1

/-! ## Lines -/

/-- The statement of an entry. -/
def entryStatement (e : String × Scalar) : Statement :=
  .entry [] e.1 e.2.toDocument

/-- The statements of a section. -/
def sectionStatements (s : String × Section) : List Statement :=
  .header [] s.1 :: s.2.map entryStatement

/-- A written text is a string, whichever of the two kinds it is. -/
theorem string_writeScalar (s : String) (rest : List Char) :
    ∃ cs, writeScalar (.text s) = '"' :: cs ∧
      string ('"' :: cs ++ '\n' :: rest) = some (s, '\n' :: rest) := by
  have apart : '"' ∉ ('\n' :: rest).head? := by simp
  by_cases line : '\n' ∈ s.toList
  · exact ⟨_, if_pos line, string_longQuote s apart⟩
  · exact ⟨_, if_neg line, string_quote s apart⟩

theorem value_writeScalar (v : Scalar) (depth : Nat) (rest : List Char) :
    value depth (writeScalar v ++ '\n' :: rest) = some (v.toDocument, '\n' :: rest) := by
  match v with
  | .flag true => cases depth <;> rfl
  | .flag false => cases depth <;> rfl
  | .text s =>
      obtain ⟨cs, text, read⟩ := string_writeScalar s rest
      rw [List.cons_append] at read
      rw [text, List.cons_append]
      unfold value
      rw [if_pos (Or.inl rfl), read]
      rfl

theorem skip_writeScalar (v : Scalar) (rest : List Char) :
    skip (' ' :: (writeScalar v ++ rest)) = writeScalar v ++ rest := by
  match v with
  | .flag true => rfl
  | .flag false => rfl
  | .text s =>
      obtain ⟨cs, text, -⟩ := string_writeScalar s []
      rw [text]
      rfl

/-- A line that starts with a name is not blank. -/
theorem lineEnd?_of_isBareKey {c : Char} (bare : isBareKey c = true) (cs : List Char) :
    lineEnd? (c :: cs) = none := by
  have start : skip (c :: cs) = c :: cs :=
    List.dropWhile_cons_of_neg (by simp [isSpace_of_isBareKey bare])
  have comment : c ≠ '#' := ne_of_isBareKey bare (by decide)
  have line : c ≠ '\n' := ne_of_isBareKey bare (by decide)
  have return' : c ≠ '\r' := ne_of_isBareKey bare (by decide)
  unfold lineEnd?
  rw [start]
  split
  · next same => exact absurd (List.cons.inj same).1 comment
  · unfold endOfLine?
    dsimp only
    unfold lineBreak?
    split
    · next same => exact absurd (List.cons.inj same).1 line
    · next same => exact absurd (List.cons.inj same).1 return'
    · rfl

/-- A text has these statements. Its length is fuel enough to find them. -/
def Yields (cs : List Char) (ss : List Statement) : Prop :=
  ∀ fuel, cs.length ≤ fuel → statements fuel cs = some ss

theorem yields_nil : Yields [] [] := by
  intro fuel _
  cases fuel <;> rfl

section Lines

variable {rest : List Char} {ss : List Statement} (later : Yields rest ss)

include later

theorem yields_blank : Yields ('\n' :: rest) ss := by
  intro fuel enough
  obtain ⟨fuel, rfl⟩ := Nat.exists_eq_add_one_of_ne_zero (Nat.ne_zero_of_lt enough)
  exact later fuel (Nat.le_of_succ_le_succ enough)

/-- A line with a statement gives the statement. -/
theorem yields_line {cs : List Char} {s : Statement} (given : lineEnd? cs = none)
    (line : statement (skip cs) = some (s, '\n' :: rest)) (shorter : rest.length < cs.length) :
    Yields cs (s :: ss) := by
  intro fuel enough
  -- The line takes one unit of fuel and at least one character.
  obtain ⟨fuel, rfl⟩ :=
    Nat.exists_eq_add_one_of_ne_zero (Nat.ne_zero_of_lt (Nat.lt_of_lt_of_le shorter enough))
  have ended : lineEnd? ('\n' :: rest) = some rest := rfl
  rw [statements, given]
  · dsimp only
    rw [line]
    simp only [ended, Option.bind_eq_bind, Option.bind_some]
    rw [later fuel (by omega)]
    rfl
  · rintro rfl
    cases given

theorem yields_header {name : String} (h : IsBare name) :
    Yields ('[' :: (name.toList ++ ']' :: '\n' :: rest)) (.header [] name :: ss) := by
  have given : key (name.toList ++ ']' :: '\n' :: rest) = some ([name], ']' :: '\n' :: rest) :=
    key_of_isBare h (by simp; decide) (by simp [skip, isSpace])
  obtain ⟨c, cs, text, bare⟩ := h.exists_cons
  have single : c ≠ '[' := ne_of_isBareKey bare (by decide)
  refine yields_line later rfl ?_ (by simp; omega)
  show header (name.toList ++ ']' :: '\n' :: rest) = _
  unfold header
  split
  · next same =>
      rw [text] at same
      exact absurd (List.cons.inj same).1 single
  · rw [given]
    rfl

theorem yields_entry {e : String × Scalar} (h : IsBare e.1) :
    Yields (writeEntry e ++ rest) (entryStatement e :: ss) := by
  have text : writeEntry e ++ rest =
      e.1.toList ++ ' ' :: '=' :: ' ' :: (writeScalar e.2 ++ '\n' :: rest) := by
    simp [writeEntry]
  have given : key (e.1.toList ++ ' ' :: '=' :: ' ' :: (writeScalar e.2 ++ '\n' :: rest)) =
      some ([e.1], '=' :: ' ' :: (writeScalar e.2 ++ '\n' :: rest)) :=
    key_of_isBare h (by simp; decide) (by simp [skip, isSpace])
  obtain ⟨c, cs, name, bare⟩ := h.exists_cons
  have single : c ≠ '[' := ne_of_isBareKey bare (by decide)
  rw [text]
  refine yields_line later ?_ ?_ (by simp; omega)
  · rw [name]
    exact lineEnd?_of_isBareKey bare _
  · rw [skip_append_of_isBare h]
    unfold statement
    split
    · next same =>
        rw [name] at same
        exact absurd (List.cons.inj same).1 single
    · unfold keyValue
      rw [given]
      simp [splitKey, Scanner.after?, skip_writeScalar, value_writeScalar, entryStatement]

theorem yields_entries {es : Section} (bare : ∀ e ∈ es, IsBare e.1) :
    Yields (es.flatMap writeEntry ++ rest) (es.map entryStatement ++ ss) := by
  induction es with
  | nil => exact later
  | cons e es ih =>
      rw [List.forall_mem_cons] at bare
      rw [List.flatMap_cons, List.append_assoc]
      exact yields_entry (ih bare.2) bare.1

theorem yields_section {s : String × Section} (h : IsBare s.1) (bare : ∀ e ∈ s.2, IsBare e.1) :
    Yields (writeSection s ++ rest) (sectionStatements s ++ ss) := by
  have text : writeSection s ++ rest =
      '[' :: (s.1.toList ++ ']' :: '\n' :: (s.2.flatMap writeEntry ++ rest)) := by
    simp [writeSection]
  rw [text]
  exact yields_header (yields_entries later bare) h

end Lines

theorem yields_sections {ss : Sections} (h : ∀ s ∈ ss, IsBare s.1)
    (bare : ∀ s ∈ ss, ∀ e ∈ s.2, IsBare e.1) :
    Yields (['\n'].intercalate (ss.map writeSection)) (ss.flatMap sectionStatements) := by
  induction ss with
  | nil => exact yields_nil
  | cons s ss ih =>
      rw [List.forall_mem_cons] at h bare
      cases ss with
      | nil =>
          have whole := yields_section yields_nil h.1 bare.1
          simpa using whole
      | cons next ss =>
          have later := yields_section (yields_blank (ih h.2 bare.2)) h.1 bare.1
          simpa [List.intercalate_cons_cons] using later

/-! ## The tables of all sections -/

/-- The node of an entry. -/
def entryNode (e : String × Scalar) : String × Node :=
  (e.1, .value e.2.toDocument)

/-- The node of a section. -/
def sectionNode (s : String × Section) : String × Node :=
  (s.1, .table .opened (s.2.map entryNode))

section Entries

variable {es : Entries} {name : String} (new : name ∉ es.map Prod.fst)

include new

theorem lookup_eq_none : es.lookup name = none := by
  rw [List.lookup_eq_none_iff]
  intro e mem
  have other : name ≠ e.1 := fun same => new (same ▸ List.mem_map_of_mem mem)
  simpa using other

theorem lookup_append_single (n : Node) : (es ++ [(name, n)]).lookup name = some n := by
  rw [List.lookup_append, lookup_eq_none new]
  simp

theorem replace_append_single (n n' : Node) :
    Entries.replace (es ++ [(name, n)]) name n' = es ++ [(name, n')] := by
  have kept : es.map (fun e => if e.1 == name then (name, n') else e) = es.map id := by
    refine List.map_congr_left fun e mem => if_neg ?_
    rw [beq_iff_eq]
    exact fun same => new (same ▸ List.mem_map_of_mem mem)
  rw [Entries.replace, List.map_append, kept, List.map_id]
  simp

theorem add_header (current : List String) : Builder.add ⟨es, current⟩ (.header [] name) =
    some ⟨es ++ [(name, .table .opened [])], [name]⟩ := by
  simp [Builder.add, descend, openTable, lookup_eq_none new]

theorem add_entry {sub : Entries} {key : String} (new' : key ∉ sub.map Prod.fst) (d : Document) :
    Builder.add ⟨es ++ [(name, .table .opened sub)], [name]⟩ (.entry [] key d) =
      some ⟨es ++ [(name, .table .opened (sub ++ [(key, .value d)]))], [name]⟩ := by
  simp [Builder.add, descend, addValue, lookup_append_single new, replace_append_single new,
    lookup_eq_none new']

/-- The entries below a header go into its table. -/
theorem foldlM_entries {sub : Entries} {entries : Section}
    (nodup : (sub.map Prod.fst ++ entries.map Prod.fst).Nodup) :
    (entries.map entryStatement).foldlM Builder.add ⟨es ++ [(name, .table .opened sub)], [name]⟩ =
      some ⟨es ++ [(name, .table .opened (sub ++ entries.map entryNode))], [name]⟩ := by
  -- Entries go to the end of the table, so the induction is over any table to start with.
  induction entries generalizing sub with
  | nil => simp
  | cons e entries ih =>
      have new' : e.1 ∉ sub.map Prod.fst := by
        intro mem
        exact (List.nodup_append.mp nodup).2.2 _ mem _ (by simp) rfl
      rw [List.map_cons, List.foldlM_cons, entryStatement, add_entry new new']
      have nodup' : ((sub ++ [entryNode e]).map Prod.fst ++ entries.map Prod.fst).Nodup := by
        simpa [entryNode] using nodup
      have later := ih nodup'
      simpa [entryNode] using later

/-- A section gives the table of its header. -/
theorem foldlM_section {entries : Section} (nodup : (entries.map Prod.fst).Nodup)
    (current : List String) :
    (sectionStatements (name, entries)).foldlM Builder.add ⟨es, current⟩ =
      some ⟨es ++ [sectionNode (name, entries)], [name]⟩ := by
  rw [sectionStatements, List.foldlM_cons, add_header new]
  exact foldlM_entries new (by simpa using nodup)

end Entries

theorem foldlM_sections {es : Entries} {ss : Sections}
    (nodup : (es.map Prod.fst ++ ss.map Prod.fst).Nodup)
    (inner : ∀ s ∈ ss, (s.2.map Prod.fst).Nodup) (current : List String) :
    ∃ last, (ss.flatMap sectionStatements).foldlM Builder.add ⟨es, current⟩ =
      some ⟨es ++ ss.map sectionNode, last⟩ := by
  induction ss generalizing es current with
  | nil => exact ⟨current, by simp⟩
  | cons s ss ih =>
      rw [List.forall_mem_cons] at inner
      have new : s.1 ∉ es.map Prod.fst := by
        intro mem
        exact (List.nodup_append.mp nodup).2.2 _ mem _ (by simp) rfl
      have nodup' : ((es ++ [sectionNode s]).map Prod.fst ++ ss.map Prod.fst).Nodup := by
        simpa [sectionNode] using nodup
      obtain ⟨last, later⟩ := ih nodup' inner.2 [s.1]
      refine ⟨last, ?_⟩
      rw [List.flatMap_cons, List.foldlM_append, foldlM_section new inner.1]
      simpa using later

theorem entryDocuments_map {α : Type} (node : α → String × Node) (xs : List α) :
    entryDocuments (xs.map node) = xs.map fun x => ((node x).1, (node x).2.toDocument) := by
  induction xs with
  | nil => rfl
  | cons x xs ih =>
      rw [List.map_cons, entryDocuments, ih]
      rfl

theorem entryDocuments_sectionNode (ss : Sections) :
    .table (entryDocuments (ss.map sectionNode)) = ss.toDocument := by
  have table (s : String × Section) : (sectionNode s).2.toDocument = s.2.toDocument := by
    rw [sectionNode, Node.toDocument, entryDocuments_map]
    exact congrArg Document.table
      (List.map_congr_left fun e _ => by rw [entryNode, Node.toDocument])
  rw [entryDocuments_map, Sections.toDocument]
  exact congrArg Document.table (List.map_congr_left fun s _ => by rw [table, sectionNode])

/-- Sections with bare names are read back. -/
theorem read_write {ss : Sections} (h : IsTidy ss) : read (write ss) = some ss.toDocument := by
  have found := yields_sections h.bare h.innerBare
  have nodup : (([] : Entries).map Prod.fst ++ ss.map Prod.fst).Nodup := by simpa using h.names
  obtain ⟨last, built⟩ := foldlM_sections nodup h.innerNames []
  have unmarked : dropMark (['\n'].intercalate (ss.map writeSection)) =
      ['\n'].intercalate (ss.map writeSection) := by
    match ss with
    | [] => rfl
    | [s] => rw [List.map_singleton, List.intercalate_singleton]; rfl
    | s :: next :: ss => rw [List.map_cons, List.map_cons, List.intercalate_cons_cons]; rfl
  unfold read write
  rw [String.toList_ofList]
  dsimp only
  rw [unmarked, found _ (Nat.le_refl _)]
  unfold ofStatements
  dsimp only [Option.bind_eq_bind, Option.bind_some]
  rw [built]
  exact congrArg some (entryDocuments_sectionNode ss)

end PrintPath.Toml
