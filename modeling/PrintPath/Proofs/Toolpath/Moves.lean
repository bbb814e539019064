import PrintPath.Proofs.Toolpath.Build

/-!
# Moves of a toolpath

Every move that is pushed counts, and those that the options draw become
segments, in the order in which they are pushed.
-/

namespace PrintPath.Toolpath

/-! ## One move -/

theorem options_push (t : Toolpath) (m : Move) : (t.push m).options = t.options := by
  unfold push addLayer addSegment
  dsimp only
  split
  · split <;> rfl
  · rfl

theorem moves_add (totals : Totals) (m : Move) : (totals.add m).moves = totals.moves + 1 := by
  unfold Totals.add
  dsimp only
  cases m.kind <;> rfl

theorem moves_push (t : Toolpath) (m : Move) :
    (t.push m).totals.moves = t.totals.moves + 1 := by
  rw [← moves_add t.totals m]
  unfold push addLayer addSegment
  dsimp only
  split
  · split <;> rfl
  · rfl

theorem segments_push (t : Toolpath) (m : Move) :
    (t.push m).segments.toList =
      t.segments.toList ++ ([m].filter (draws t.options)).map Segment.ofMove := by
  unfold push
  dsimp only
  by_cases drawn : draws t.options m = true
  · rw [if_pos drawn, List.filter_cons_of_pos drawn]
    unfold addLayer addSegment
    split <;> simp
  · rw [if_neg drawn, List.filter_cons_of_neg drawn]
    simp

/-! ## Many moves -/

theorem moves_foldl_push (t : Toolpath) (moves : List Move) :
    (moves.foldl push t).totals.moves = t.totals.moves + moves.length := by
  induction moves generalizing t with
  | nil => rfl
  | cons move rest ih =>
      rw [List.foldl_cons, ih, moves_push, List.length_cons]
      omega

theorem segments_foldl_push (t : Toolpath) (moves : List Move) :
    (moves.foldl push t).segments.toList =
      t.segments.toList ++ (moves.filter (draws t.options)).map Segment.ofMove := by
  induction moves generalizing t with
  | nil => simp
  | cons move rest ih =>
      rw [List.foldl_cons, ih, segments_push, options_push, List.append_assoc, ← List.map_append,
        ← List.filter_append, List.singleton_append]

/-! ## Builds -/

theorem moves_built (drawing : DrawingOptions) (outcomes : List Outcome) (m : Machine) :
    (built drawing outcomes m).totals.moves = (movesOf outcomes).length := by
  show ((movesOf outcomes).foldl push (empty drawing)).totals.moves = _
  rw [moves_foldl_push]
  exact Nat.zero_add _

theorem segments_built (drawing : DrawingOptions) (outcomes : List Outcome) (m : Machine) :
    (built drawing outcomes m).segments.toList =
      ((movesOf outcomes).filter (draws drawing)).map Segment.ofMove := by
  show ((movesOf outcomes).foldl push (empty drawing)).segments.toList = _
  rw [segments_foldl_push]
  rfl

end PrintPath.Toolpath
