import PrintPath.Proofs.Block.Text

/-!
# The last argument of a letter counts

A block binds each letter to the last of its values on the line, and arguments are
determined by what they bind. So a line may list its arguments in any order that
keeps those of one letter in theirs.
-/

namespace PrintPath

/-! ## Arguments as a map -/

namespace Arguments

theorem get?_eq_some_iff {args : Arguments} {k : Char} {v : Float} :
    args.get? k = some v ↔ (k, v) ∈ args.entries := by
  unfold get?
  rw [List.lookup_eq_some_iff]
  constructor
  · rintro ⟨before, after, entries, -⟩
    rw [entries]
    exact List.mem_append_right _ List.mem_cons_self
  · intro mem
    obtain ⟨before, after, entries⟩ := List.append_of_mem mem
    refine ⟨before, after, entries, fun e earlier => ?_⟩
    have ascending := args.ascending
    rw [entries] at ascending
    have below : e.1 < k :=
      (List.pairwise_append.mp ascending).2.2 e earlier (k, v) List.mem_cons_self
    simpa using below.ne'

theorem nodup_entries (args : Arguments) : args.entries.Nodup :=
  args.ascending.imp fun {e e'} (below : e.1 < e'.1) same =>
    absurd (congrArg Prod.fst same) below.ne

/-- Arguments that bind the same are the same. -/
theorem ext_get? {args args' : Arguments} (h : ∀ k, args.get? k = args'.get? k) :
    args = args' := by
  have members : ∀ e, e ∈ args.entries ↔ e ∈ args'.entries := fun e => by
    rw [← get?_eq_some_iff, ← get?_eq_some_iff, h]
  have perm : args.entries.Perm args'.entries :=
    (List.perm_ext_iff_of_nodup args.nodup_entries args'.nodup_entries).mpr members
  have asymmetric (e e' : Char × Float) (_ : e ∈ args.entries) (_ : e' ∈ args'.entries)
      (below : e.1 < e'.1) (above : e'.1 < e.1) : e = e' :=
    absurd above below.asymm
  have entries := perm.eq_of_pairwise asymmetric args.ascending args'.ascending
  obtain ⟨_, _⟩ := args
  obtain ⟨_, _⟩ := args'
  dsimp only at entries
  subst entries
  rfl

end Arguments

/-! ## The values of a letter -/

namespace Line

/-- The values that some words give a letter, from left to right. Words that are no
arguments give none. -/
def values (k : Char) (ws : List (List Char)) : List Float :=
  ws.filterMap fun word =>
    match readArgument word with
    | .ok (letter, v) => if letter = k then some v else none
    | .error _ => none

theorem values_cons_of_ok {word : List Char} {letter : Char} {v : Float}
    (h : readArgument word = .ok (letter, v)) (k : Char) (rest : List (List Char)) :
    values k (word :: rest) = if letter = k then v :: values k rest else values k rest := by
  unfold values
  rw [List.filterMap_cons, h]
  split <;> simp_all

theorem values_cons_of_error {word : List Char} {defect : Defect}
    (h : readArgument word = .error defect) (k : Char) (rest : List (List Char)) :
    values k (word :: rest) = values k rest := by
  unfold values
  rw [List.filterMap_cons, h]

/-- A letter is bound to the last value that the words give it, if they give any. -/
theorem get?_addLeniently (b : Block) (ws : List (List Char)) (k : Char) :
    (addLeniently b ws).arguments.get? k =
      (values k ws).getLast?.or (b.arguments.get? k) := by
  induction ws generalizing b with
  | nil => rfl
  | cons word ws ih =>
      cases given : readArgument word with
      | error defect => rw [addLeniently_cons_of_error given, values_cons_of_error given, ih]
      | ok argument =>
          obtain ⟨letter, v⟩ := argument
          have lower : letter.toLower = letter :=
            toLower_of_isLower (isTidy_of_readArgument given).letter
          have bound : (b.withArgument letter v).arguments.get? k =
              if k = letter then some v else b.arguments.get? k := by
            rw [Block.withArgument, Arguments.get?_insert, lower]
          rw [addLeniently_cons_of_ok given, ih, bound, values_cons_of_ok given]
          by_cases same : letter = k
          · rw [if_pos same, if_pos same.symm, List.getLast?_cons]
            cases (values k ws).getLast? <;> rfl
          · rw [if_neg same, if_neg (Ne.symm same)]

theorem command_addLeniently (b : Block) (ws : List (List Char)) :
    (addLeniently b ws).command = b.command := by
  induction ws generalizing b with
  | nil => rfl
  | cons word ws ih =>
      cases given : readArgument word with
      | ok argument =>
          rw [addLeniently_cons_of_ok given, ih]
          rfl
      | error defect => rw [addLeniently_cons_of_error given, ih]

/-- Words that give every letter the same values make the same block. -/
theorem addLeniently_congr {ws ws' : List (List Char)} (h : ∀ k, values k ws = values k ws')
    (b : Block) : addLeniently b ws = addLeniently b ws' := by
  have arguments : (addLeniently b ws).arguments = (addLeniently b ws').arguments :=
    Arguments.ext_get? fun k => by rw [get?_addLeniently, get?_addLeniently, h]
  refine Block.ext_entries ?_ (congrArg Arguments.entries arguments) ?_
  · rw [command_addLeniently, command_addLeniently]
  · rw [line_addLeniently, line_addLeniently]

/-- A strict reader adds well-formed arguments as a lenient one does. -/
theorem addStrictly_of_forall {ws : List (List Char)} (fine : ∀ w ∈ ws, isArgument w = true)
    (n : Nat) (b : Block) : addStrictly n b ws = .ok (addLeniently b ws) := by
  rw [← addStrictly_filter, List.filter_eq_self.mpr fine]

/-- Two lines with one command whose arguments are all well formed and give every
letter the same values are read alike. -/
theorem read_of_values {line line' command : List Char} {ws ws' : List (List Char)}
    (words : codeWords line = command :: ws) (words' : codeWords line' = command :: ws')
    (fine : ∀ w ∈ ws, isArgument w = true) (fine' : ∀ w ∈ ws', isArgument w = true)
    (h : ∀ k, values k ws = values k ws') (s : Strictness) (n : Nat) :
    read s n line = read s n line' := by
  rw [read_eq, read_eq, words, words']
  cases s with
  | strict =>
      dsimp only
      rw [addStrictly_of_forall fine, addStrictly_of_forall fine', addLeniently_congr h]
  | lenient =>
      dsimp only
      rw [addLeniently_congr h]

end Line

end PrintPath
