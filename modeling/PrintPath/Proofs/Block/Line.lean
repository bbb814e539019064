import PrintPath.Program

/-!
# What a line gives

The arguments of a line are added to its block one after the other. A strict reader
gives the block or the fault of a malformed argument; a lenient one gives the block with
the faults of all malformed arguments. Whatever comes out carries the number of the line.
-/

namespace PrintPath

namespace Line

/-! ## One argument after the other -/

/-- Adds arguments to a block, and stops at the first malformed one. -/
def addStrictly (n : Nat) (b : Block) (arguments : List (List Char)) : Except Fault Block :=
  arguments.foldlM (fun b word =>
    match readArgument word with
    | .ok (letter, v) => .ok (b.withArgument letter v)
    | .error defect => .error (argumentFault n word defect)) b

/-- Adds the well-formed arguments to a block. -/
def addLeniently (b : Block) (arguments : List (List Char)) : Block :=
  arguments.foldl (fun b word =>
    match readArgument word with
    | .ok (letter, v) => b.withArgument letter v
    | .error _ => b) b

/-- The faults of the malformed ones among some arguments, from left to right. -/
def defects (n : Nat) (arguments : List (List Char)) : List Fault :=
  arguments.filterMap fun word =>
    match readArgument word with
    | .ok _ => none
    | .error defect => some (argumentFault n word defect)

section Words

variable {word : List Char} {letter : Char} {v : Float} {defect : Defect}

theorem addStrictly_cons_of_ok (h : readArgument word = .ok (letter, v)) (n : Nat) (b : Block)
    (rest : List (List Char)) :
    addStrictly n b (word :: rest) = addStrictly n (b.withArgument letter v) rest := by
  unfold addStrictly
  rw [List.foldlM_cons, h]
  rfl

theorem addStrictly_cons_of_error (h : readArgument word = .error defect) (n : Nat) (b : Block)
    (rest : List (List Char)) :
    addStrictly n b (word :: rest) = .error (argumentFault n word defect) := by
  unfold addStrictly
  rw [List.foldlM_cons, h]
  rfl

theorem addLeniently_cons_of_ok (h : readArgument word = .ok (letter, v)) (b : Block)
    (rest : List (List Char)) :
    addLeniently b (word :: rest) = addLeniently (b.withArgument letter v) rest := by
  unfold addLeniently
  rw [List.foldl_cons, h]

theorem addLeniently_cons_of_error (h : readArgument word = .error defect) (b : Block)
    (rest : List (List Char)) :
    addLeniently b (word :: rest) = addLeniently b rest := by
  unfold addLeniently
  rw [List.foldl_cons, h]

theorem defects_cons_of_ok (h : readArgument word = .ok (letter, v)) (n : Nat)
    (rest : List (List Char)) : defects n (word :: rest) = defects n rest := by
  unfold defects
  rw [List.filterMap_cons, h]

theorem defects_cons_of_error (h : readArgument word = .error defect) (n : Nat)
    (rest : List (List Char)) :
    defects n (word :: rest) = argumentFault n word defect :: defects n rest := by
  unfold defects
  rw [List.filterMap_cons, h]

end Words

/-! ## Both readers -/

section Loop

variable (n : Nat) (b : Block) (skipped : List Fault) (arguments : List (List Char))

theorem foldlM_strict : arguments.foldlM (addArgument .strict n) (b, skipped) =
    (addStrictly n b arguments).map (·, skipped) := by
  induction arguments generalizing b with
  | nil => rfl
  | cons word rest ih =>
      rw [List.foldlM_cons, addArgument]
      cases given : readArgument word with
      | ok argument =>
          rw [addStrictly_cons_of_ok given]
          exact ih (b.withArgument argument.1 argument.2)
      | error defect =>
          rw [addStrictly_cons_of_error given]
          rfl

/-- A lenient reader keeps the faults of the arguments that it leaves out. -/
theorem foldlM_lenient : arguments.foldlM (addArgument .lenient n) (b, skipped) =
    .ok (addLeniently b arguments, skipped ++ defects n arguments) := by
  induction arguments generalizing b skipped with
  | nil => exact congrArg (Except.ok <| Prod.mk b ·) (List.append_nil skipped).symm
  | cons word rest ih =>
      rw [List.foldlM_cons, addArgument]
      cases given : readArgument word with
      | ok argument =>
          rw [addLeniently_cons_of_ok given, defects_cons_of_ok given]
          exact ih (b.withArgument argument.1 argument.2) skipped
      | error defect =>
          rw [addLeniently_cons_of_error given, defects_cons_of_error given, List.append_cons]
          exact ih b (skipped ++ [argumentFault n word defect])

end Loop

theorem read_eq (s : Strictness) (n : Nat) (line : List Char) :
    read s n line =
      match codeWords line with
      | [] => .ok none
      | command :: arguments =>
        let b := Block.bare (String.ofList command) n
        match s with
        | .strict => (addStrictly n b arguments).map some
        | .lenient => .ok (some (addLeniently b arguments)) := by
  unfold read parse
  cases codeWords line with
  | nil => rfl
  | cons command arguments =>
      cases s with
      | strict =>
          dsimp only
          rw [foldlM_strict]
          cases addStrictly n (.bare (String.ofList command) n) arguments <;> rfl
      | lenient =>
          dsimp only
          rw [foldlM_lenient]
          rfl

/-- The faults of the arguments that a reader leaves out. -/
def skipped (s : Strictness) (n : Nat) (line : List Char) : List Fault :=
  match s with
  | .strict => []
  | .lenient => defects n (codeWords line).tail

/-- A line gives its reading with the faults of what was left out. -/
theorem parse_eq (s : Strictness) (n : Nat) (line : List Char) :
    parse s n line = (read s n line).map (·.map (·, skipped s n line)) := by
  unfold read parse skipped
  cases codeWords line with
  | nil => rfl
  | cons command arguments =>
      cases s with
      | strict =>
          dsimp only
          rw [foldlM_strict]
          cases addStrictly n (.bare (String.ofList command) n) arguments <;> rfl
      | lenient =>
          dsimp only
          rw [foldlM_lenient]
          rfl

end Line

/-! ## Line numbers -/

/-- The line that a reading is about. -/
def readingLine : Except Fault Block → Nat
  | .ok b => b.line
  | .error fault => fault.line

namespace Line

theorem readingLine_addStrictly {n : Nat} {b : Block} (h : b.line = n)
    (arguments : List (List Char)) : readingLine (addStrictly n b arguments) = n := by
  induction arguments generalizing b with
  | nil => exact h
  | cons word rest ih =>
      cases read : readArgument word with
      | ok argument =>
          rw [addStrictly_cons_of_ok read]
          exact ih h
      | error defect =>
          rw [addStrictly_cons_of_error read]
          rfl

theorem line_addLeniently (b : Block) (arguments : List (List Char)) :
    (addLeniently b arguments).line = b.line := by
  induction arguments generalizing b with
  | nil => rfl
  | cons word rest ih =>
      cases read : readArgument word with
      | ok argument =>
          rw [addLeniently_cons_of_ok read, ih]
          rfl
      | error defect => rw [addLeniently_cons_of_error read, ih]

/-- A line is blank, or its reading carries its number. -/
theorem read_cases (s : Strictness) (n : Nat) (line : List Char) :
    read s n line = .ok none ∨
      ∃ reading : Except Fault Block,
        read s n line = reading.map some ∧ readingLine reading = n := by
  rw [read_eq]
  cases codeWords line with
  | nil => exact Or.inl rfl
  | cons command arguments =>
      right
      cases s with
      | strict =>
          have fresh : (Block.bare (String.ofList command) n).line = n := rfl
          exact ⟨_, rfl, readingLine_addStrictly fresh arguments⟩
      | lenient => exact ⟨.ok _, rfl, line_addLeniently _ arguments⟩

end Line

namespace Item

/-- An empty line is blank. -/
@[simp] theorem ofLine?_nil (s : Strictness) (n : Nat) : ofLine? s n [] = none := rfl

/-- The item on a line is its reading with what was left out. -/
theorem ofLine?_eq (s : Strictness) (n : Nat) (line : List Char) :
    ofLine? s n line =
      match Line.read s n line with
      | .ok none => none
      | .ok (some b) => some ⟨.ok b, Line.skipped s n line⟩
      | .error fault => some ⟨.error fault, []⟩ := by
  unfold ofLine?
  rw [Line.parse_eq]
  cases Line.read s n line with
  | error fault => rfl
  | ok b? => cases b? <;> rfl

/-- A line gives nothing exactly if it has no words. -/
theorem codeWords_eq_nil_iff {s : Strictness} {n : Nat} {line : List Char} :
    Line.codeWords line = [] ↔ ofLine? s n line = none := by
  rw [ofLine?_eq, Line.read_eq]
  cases Line.codeWords line with
  | nil => simp
  | cons command arguments =>
      cases s with
      | lenient => simp
      | strict =>
          dsimp only
          cases Line.addStrictly n (Block.bare (String.ofList command) n) arguments <;>
            simp [Except.map]

/-- The item on a line holds the reading of the line. -/
theorem read_of_ofLine? {s : Strictness} {n : Nat} {line : List Char} {item : Item}
    (h : ofLine? s n line = some item) : Line.read s n line = item.result.map some := by
  rw [ofLine?_eq] at h
  cases read : Line.read s n line with
  | error fault =>
      rw [read] at h
      cases h
      rfl
  | ok b? =>
      rw [read] at h
      cases b? with
      | none => cases h
      | some b =>
          cases h
          rfl

theorem readingLine_of_ofLine? {s : Strictness} {n : Nat} {line : List Char} {item : Item}
    (h : ofLine? s n line = some item) : readingLine item.result = n := by
  rw [ofLine?_eq] at h
  rcases Line.read_cases s n line with blank | ⟨reading, read, number⟩
  · rw [blank] at h
    cases h
  · rw [read] at h
    cases reading with
    | ok b =>
        cases h
        exact number
    | error fault =>
        cases h
        exact number

end Item

end PrintPath
