import PrintPath.Proofs.Block.Layout
import PrintPath.Proofs.Pass.Strictness
import PrintPath.Proofs.Toolpath.Build

/-!
# The layout of a program

Line by line, the layout of a program can be changed at will: a pass over it reports
the same and leaves the same machine behind, and a build gives the same toolpath.
-/

namespace PrintPath

namespace Program

/-- Programs of as many lines, each of which differs in its layout alone. -/
def SameLayout (p q : String) : Prop :=
  List.Forall₂ Line.SameLayout (Text.pieces (· == '\n') p.toList)
    (Text.pieces (· == '\n') q.toList)

theorem map_result_items_of_sameLayout {p q : String} (h : SameLayout p q) (s : Strictness) :
    (items s p).map Item.result = (items s q).map Item.result := by
  rw [items_eq, items_eq]
  unfold numbered Text.lines
  refine map_result_itemsOn_congr ?_ 1
  rw [List.forall₂_map_left_iff, List.forall₂_map_right_iff]
  refine h.imp fun line line' same n => ?_
  calc Line.read s n (Text.dropCarriageReturn line)
      = Line.read s n line := Line.read_congr (Line.codeWords_dropCarriageReturn line) s n
    _ = Line.read s n line' := Line.read_of_sameLayout same s n
    _ = Line.read s n (Text.dropCarriageReturn line') :=
        (Line.read_congr (Line.codeWords_dropCarriageReturn line') s n).symm

end Program

namespace Toolpath

/-- A build looks at nothing of a program but the readings of its lines. -/
theorem ofProgram_congr {p q : String} {reading : ReadingOptions}
    (outcomes : (Pass.ofProgram p reading).outcomes = (Pass.ofProgram q reading).outcomes)
    (machine : (Pass.ofProgram p reading).finished.machine =
      (Pass.ofProgram q reading).finished.machine) (drawing : DrawingOptions) :
    ofProgram p reading drawing = ofProgram q reading drawing := by
  rw [ofProgram_eq, ofProgram_eq, outcomes, machine]

/-- **Layout does not matter.** Whatever changes are made to the layout of the lines of
a program, under any options: the pass reports the same moves and faults on the same
lines and ends with the same machine, and the toolpath is the same. -/
theorem layout_invisible {p q : String} (h : Program.SameLayout p q) (reading : ReadingOptions)
    (drawing : DrawingOptions) :
    (Pass.ofProgram p reading).outcomes = (Pass.ofProgram q reading).outcomes ∧
    (Pass.ofProgram p reading).finished.machine = (Pass.ofProgram q reading).finished.machine ∧
    ofProgram p reading drawing = ofProgram q reading drawing := by
  obtain ⟨outcomes, machine⟩ := Pass.run_congr reading.errorPolicy .initial
    (Program.map_result_items_of_sameLayout h reading.strictness)
  rw [← Pass.outcomes_ofProgram, ← Pass.outcomes_ofProgram] at outcomes
  rw [← Pass.finished_ofProgram, ← Pass.finished_ofProgram] at machine
  exact ⟨outcomes, machine, ofProgram_congr outcomes machine drawing⟩

/-- Every kind of change at once: a letter given twice around another one, wide and
exotic blanks, both kinds of line breaks, comments that come, go and hold semicolons,
and a malformed argument that stays where it is. -/
theorem layout_invisible_of_untidy :
    let p := "G1 X1 y2 x3 ;a\nG92 E0 Z\n;b"
    let q := "\tG1 Y2 X1\u3000x3\r\nG92\u0085E0 Z;;c\n\u2003"
    Program.SameLayout p q ∧
      ofProgram p ⟨.strict, .bestEffort⟩ {} = ofProgram q ⟨.strict, .bestEffort⟩ {} := by
  intro p q
  have first : Line.SameLayout
      ['G', '1', ' ', 'X', '1', ' ', 'y', '2', ' ', 'x', '3', ' ', ';', 'a']
      ['\t', 'G', '1', ' ', 'Y', '2', ' ', 'X', '1', '\u3000', 'x', '3', '\r'] := by
    have comment := Line.Rewrites.comment
      ['G', '1', ' ', 'X', '1', ' ', 'y', '2', ' ', 'x', '3', ' '] [';', 'a'] []
      (by decide) (by decide)
    have finish := Line.Rewrites.finish
      ['G', '1', ' ', 'X', '1', ' ', 'y', '2', ' ', 'x', '3'] [' '] [] (by decide) (by decide)
    have order := Line.Rewrites.order ['G', '1']
      [([' '], ['X', '1']), ([' '], ['y', '2']), ([' '], ['x', '3'])]
      [([' '], ['y', '2']), ([' '], ['X', '1']), (['\u3000'], ['x', '3'])]
      (by decide) (by decide +kernel) (by decide +kernel) (by decide) fun k => by
        by_cases letter : some 'x' = k
        · subst letter
          decide
        · simp [List.filter_cons, letter, show Line.letterOf ['X', '1'] = some 'x' from rfl]
    have case := Line.Rewrites.case ['G', '1']
      [([' '], ['y', '2']), ([' '], ['X', '1']), (['\u3000'], ['x', '3'])]
      [([' '], ['Y', '2']), ([' '], ['X', '1']), (['\u3000'], ['x', '3'])]
      (by decide) (by decide +kernel) (by decide +kernel)
      (.cons (.mk (show 'y'.toLower = 'Y'.toLower from rfl) _)
        (.cons (.mk rfl _) (.cons (.mk rfl _) .nil)))
    have start := Line.Rewrites.start ['\t']
      ['G', '1', ' ', 'Y', '2', ' ', 'X', '1', '\u3000', 'x', '3'] (by decide)
    have lineBreak := Line.Rewrites.lineBreak
      ['\t', 'G', '1', ' ', 'Y', '2', ' ', 'X', '1', '\u3000', 'x', '3']
    exact .trans _ _ _ (.rel _ _ comment) (.trans _ _ _ (.symm _ _ (.rel _ _ finish))
      (.trans _ _ _ (.rel _ _ order) (.trans _ _ _ (.rel _ _ case)
        (.trans _ _ _ (.rel _ _ start) (.rel _ _ lineBreak)))))
  have second : Line.SameLayout ['G', '9', '2', ' ', 'E', '0', ' ', 'Z']
      ['G', '9', '2', '\u0085', 'E', '0', ' ', 'Z', ';', ';', 'c'] := by
    have gap := Line.Rewrites.gap ['G', '9', '2'] [' '] ['\u0085'] ['E', '0', ' ', 'Z']
      (by decide) (by decide) (by decide) (by decide)
    have comment := Line.Rewrites.comment ['G', '9', '2', '\u0085', 'E', '0', ' ', 'Z'] []
      [';', ';', 'c'] (by decide) (by decide)
    exact .trans _ _ _ (.rel _ _ gap) (.rel _ _ comment)
  have third : Line.SameLayout [';', 'b'] ['\u2003'] := by
    have comment := Line.Rewrites.comment [] [';', 'b'] [] (by decide) (by decide)
    have start := Line.Rewrites.start ['\u2003'] [] (by decide)
    exact .trans _ _ _ (.rel _ _ comment) (.rel _ _ start)
  have same : Program.SameLayout p q := by
    have lines : Text.pieces (· == '\n') p.toList =
        [['G', '1', ' ', 'X', '1', ' ', 'y', '2', ' ', 'x', '3', ' ', ';', 'a'],
          ['G', '9', '2', ' ', 'E', '0', ' ', 'Z'], [';', 'b']] := by decide
    have lines' : Text.pieces (· == '\n') q.toList =
        [['\t', 'G', '1', ' ', 'Y', '2', ' ', 'X', '1', '\u3000', 'x', '3', '\r'],
          ['G', '9', '2', '\u0085', 'E', '0', ' ', 'Z', ';', ';', 'c'], ['\u2003']] := by decide
    unfold Program.SameLayout
    rw [lines, lines']
    exact .cons first (.cons second (.cons third .nil))
  exact ⟨same, (layout_invisible same _ _).2.2⟩

end Toolpath

end PrintPath
