import PrintPath.Proofs.Machine.Extrusion
import PrintPath.Proofs.Number.Nonneg
import PrintPath.Proofs.Pass.Handoff
import PrintPath.Proofs.Toolpath.Drawing

/-!
# What the totals add up

Every move counts once, as one of the three kinds. A move that a machine makes adds
lengths that are not negative: the sign of its filament is that of its kind, and its
way is a root of squares. So the sums of a program only grow, and a length of filament
is positive as soon as there is one move of its kind.
-/

namespace PrintPath

open Number

/-! ## The way of a move -/

theorem Point.nonneg_distance {p q : Point} (hp : p.isFinite) (hq : q.isFinite) :
    0 ≤ p.distance q := by
  simp only [Point.isFinite, Bool.and_eq_true] at hp hq
  have square {x y : Float} (hx : x.isFinite) (hy : y.isFinite) : 0 ≤ (y - x) * (y - x) :=
    nonneg_square (isNaN_sub hy hx)
  exact nonneg_sqrt (nonneg_plus (nonneg_plus (square hp.1.1 hq.1.1) (square hp.1.2 hq.1.2))
    (square hp.2 hq.2))

namespace Totals

/-- The sums of lengths among the totals. -/
def lengths : List (Totals → Float) :=
  [filamentUsed, filamentRetracted, extrusionDistance, travelDistance, distance]

/-- Every move counts as one of the three kinds. -/
theorem kinds_add {t : Totals} (h : t.moves = t.extrusionMoves + t.travelMoves + t.retractionMoves)
    (m : Move) :
    (t.add m).moves =
      (t.add m).extrusionMoves + (t.add m).travelMoves + (t.add m).retractionMoves := by
  unfold add
  dsimp only
  cases m.kind <;> dsimp only <;> omega

/-! ## One move -/

/-- No sum is negative, and there is filament exactly if there is a move for it. -/
structure Accrued (t : Totals) : Prop where
  used : 0 ≤ t.filamentUsed
  retracted : 0 ≤ t.filamentRetracted
  extruding : 0 ≤ t.extrusionDistance
  travelling : 0 ≤ t.travelDistance
  used_iff : 0 < t.filamentUsed ↔ 0 < t.extrusionMoves
  retracted_iff : 0 < t.filamentRetracted ↔ 0 < t.retractionMoves

/-- No sum of the one totals is above that of the others. -/
structure AtMost (t t' : Totals) : Prop where
  used : t.filamentUsed ≤ t'.filamentUsed
  retracted : t.filamentRetracted ≤ t'.filamentRetracted
  extruding : t.extrusionDistance ≤ t'.extrusionDistance
  travelling : t.travelDistance ≤ t'.travelDistance

theorem accrued_empty : ({} : Totals).Accrued := by
  constructor <;> decide +kernel

theorem Accrued.nonneg {t : Totals} (h : t.Accrued) : ∀ length ∈ lengths, 0 ≤ length t := by
  simp only [lengths, List.forall_mem_cons]
  exact ⟨h.used, h.retracted, h.extruding, h.travelling, nonneg_plus h.extruding h.travelling,
    List.forall_mem_nil _⟩

theorem AtMost.le {t t' : Totals} (h : t.AtMost t') (accrued : t.Accrued) (accrued' : t'.Accrued) :
    ∀ length ∈ lengths, length t ≤ length t' := by
  simp only [lengths, List.forall_mem_cons]
  exact ⟨h.used, h.retracted, h.extruding, h.travelling,
    plus_le_plus accrued.extruding accrued'.extruding accrued.travelling accrued'.travelling
      h.extruding h.travelling,
    List.forall_mem_nil _⟩

/-- A flagged move of some length lets the sums grow. -/
theorem Accrued.add {t : Totals} (h : t.Accrued) {m : Move} (flagged : m.Flagged)
    (length : 0 ≤ m.length) : (t.add m).Accrued ∧ t.AtMost (t.add m) := by
  unfold Totals.add
  dsimp only
  cases kind : m.kind with
  | extrusion =>
      have pos := flagged.kind_eq_extrusion_iff.mp kind
      have pushed := le_of_less pos
      exact ⟨⟨nonneg_plus h.used pushed, h.retracted, nonneg_plus h.extruding length, h.travelling,
        iff_of_true (pos_plus h.used pos) (Nat.succ_pos _), h.retracted_iff⟩,
        le_plus h.used pushed, le_self h.retracted, le_plus h.extruding length,
        le_self h.travelling⟩
  | travel =>
      exact ⟨⟨h.used, h.retracted, h.extruding, nonneg_plus h.travelling length, h.used_iff,
        h.retracted_iff⟩, le_self h.used, le_self h.retracted, le_self h.extruding,
        le_plus h.travelling length⟩
  | retraction =>
      -- Subtracting what was pulled back is adding the length of it.
      have pos := neg_pos_of_less (flagged.kind_eq_retraction_iff.mp kind)
      have pulled := le_of_less pos
      rw [sub_eq_add_opposite]
      exact ⟨⟨h.used, nonneg_plus h.retracted pulled, h.extruding, nonneg_plus h.travelling length,
        h.used_iff, iff_of_true (pos_plus h.retracted pos) (Nat.succ_pos _)⟩,
        le_self h.used, le_plus h.retracted pulled, le_self h.extruding,
        le_plus h.travelling length⟩

end Totals

namespace Toolpath

/-! ## Many moves -/

theorem ofMoves_snoc (drawing : DrawingOptions) (moves : List Move) (m : Move) :
    ofMoves drawing (moves ++ [m]) = (ofMoves drawing moves).push m := by
  rw [ofMoves, List.foldl_append]
  rfl

theorem kinds_ofMoves (drawing : DrawingOptions) (moves : List Move) :
    let totals := (ofMoves drawing moves).totals
    totals.moves = totals.extrusionMoves + totals.travelMoves + totals.retractionMoves := by
  induction moves using List.reverseRecOn with
  | nil => rfl
  | append_singleton moves m ih =>
      have counted := Totals.kinds_add ih m
      rw [ofMoves_snoc, totals_push]
      split
      · exact counted
      · exact counted

/-- The number of layers is no sum. -/
theorem accrued_push {t : Toolpath} (h : t.totals.Accrued) {m : Move} (flagged : m.Flagged)
    (length : 0 ≤ m.length) :
    (t.push m).totals.Accrued ∧ t.totals.AtMost (t.push m).totals := by
  obtain ⟨accrued, atMost⟩ := h.add flagged length
  rw [totals_push]
  split
  · exact ⟨⟨accrued.used, accrued.retracted, accrued.extruding, accrued.travelling,
      accrued.used_iff, accrued.retracted_iff⟩,
      ⟨atMost.used, atMost.retracted, atMost.extruding, atMost.travelling⟩⟩
  · exact ⟨accrued, atMost⟩

theorem accrued_ofMoves (drawing : DrawingOptions) {moves : List Move}
    (regular : ∀ m ∈ moves, m.Flagged ∧ 0 ≤ m.length) :
    (ofMoves drawing moves).totals.Accrued := by
  induction moves using List.reverseRecOn with
  | nil => exact Totals.accrued_empty
  | append_singleton moves m ih =>
      rw [List.forall_mem_append, List.forall_mem_singleton] at regular
      obtain ⟨before, flagged, length⟩ := regular
      rw [ofMoves_snoc]
      exact (accrued_push (ih before) flagged length).1

/-- The moves of a program are flagged, and their ways are not negative. -/
theorem regular_of_mem {program : String} {reading : ReadingOptions} {m : Move}
    (mem : m ∈ movesOf (Pass.ofProgram program reading).outcomes) :
    m.Flagged ∧ 0 ≤ m.length := by
  have outcome := mem_movesOf.mp mem
  obtain ⟨start, finish⟩ := Pass.isFinite_of_mem_outcomes outcome
  rw [Pass.outcomes_ofProgram] at outcome
  obtain ⟨pre, b, m', -, step⟩ := Pass.exists_step_of_move outcome
  exact ⟨Machine.flagged_of_step (Machine.sound_run pre) step, Point.nonneg_distance start finish⟩

/-- **Totals never go wrong in sign.** Whatever moves are pushed, each is counted once as
one of the three kinds, and there are no more segments than moves. While the moves of a
program are pushed one by one, no sum of lengths is ever undefined or negative, and none
ever falls. Filament has been used, or retracted, exactly if a move has done so. The
toolpath of the program, if there is one, has the totals and the segments of all its
moves. -/
theorem totals_accrue :
    (∀ drawing moves,
      let t := ofMoves drawing moves
      t.totals.moves = moves.length ∧
      t.totals.moves =
        t.totals.extrusionMoves + t.totals.travelMoves + t.totals.retractionMoves ∧
      t.segments.size ≤ t.totals.moves) ∧
    ∀ program reading drawing,
      let moves := movesOf (Pass.ofProgram program reading).outcomes
      (∀ t, ofProgram program reading drawing = .ok t →
        t.totals = (ofMoves drawing moves).totals ∧
        t.segments = (ofMoves drawing moves).segments) ∧
      (∀ pre, pre <+: moves →
        let totals := (ofMoves drawing pre).totals
        (∀ length ∈ Totals.lengths, (length totals).isNaN = false ∧ 0 ≤ length totals) ∧
        (0 < totals.filamentUsed ↔ 0 < totals.extrusionMoves) ∧
        (0 < totals.filamentRetracted ↔ 0 < totals.retractionMoves)) ∧
      ∀ pre m, pre ++ [m] <+: moves → ∀ length ∈ Totals.lengths,
        length (ofMoves drawing pre).totals ≤ length (ofMoves drawing (pre ++ [m])).totals := by
  refine ⟨fun drawing moves => ?_, fun program reading drawing => ?_⟩
  · intro t
    have counted : t.totals.moves = moves.length :=
      (moves_foldl_push (empty drawing) moves).trans (Nat.zero_add _)
    have drawn : t.segments.size = (moves.filter (draws drawing)).length := by
      rw [← Array.length_toList, segments_ofMoves, List.length_map]
    refine ⟨counted, kinds_ofMoves drawing moves, ?_⟩
    rw [drawn, counted]
    exact List.length_filter_le _ _
  · intro moves
    -- What has been pushed so far are moves of the program too.
    have accrued {pre : List Move} (h : pre <+: moves) :
        (ofMoves drawing pre).totals.Accrued :=
      accrued_ofMoves drawing fun m mem => regular_of_mem (h.subset mem)
    refine ⟨fun t ok => ?_, fun pre h => ?_, fun pre m h => ?_⟩
    · obtain ⟨rfl, -⟩ := eq_built_of_ok ok
      exact ⟨rfl, rfl⟩
    · have sums := (accrued h).nonneg
      exact ⟨fun length mem => ⟨(defined_of_le (sums length mem)).2, sums length mem⟩,
        (accrued h).used_iff, (accrued h).retracted_iff⟩
    · have before := accrued ((List.prefix_append pre [m]).trans h)
      obtain ⟨flagged, length⟩ := regular_of_mem (h.subset List.mem_concat_self)
      obtain ⟨after, atMost⟩ := accrued_push before flagged length
      rw [ofMoves_snoc]
      exact atMost.le before after

/-- One move of each kind. -/
theorem totals_accrue_of_three_kinds :
    ∃ t, ofProgram "G1 X3 Y4 E2\nG1 E1.5\nG0 X0" ⟨.strict, .abort⟩ {} = .ok t ∧
      (t.totals.extrusionMoves, t.totals.travelMoves, t.totals.retractionMoves) = (1, 1, 1) ∧
      0 < t.totals.filamentUsed ∧ 0 < t.totals.filamentRetracted ∧ 0 ≤ t.totals.distance := by
  have built : (ofProgram "G1 X3 Y4 E2\nG1 E1.5\nG0 X0" ⟨.strict, .abort⟩ {}).map
      (fun t => (t.totals.extrusionMoves, t.totals.travelMoves, t.totals.retractionMoves)) =
        .ok (1, 1, 1) := by
    decide +kernel
  obtain ⟨t, ok, kinds⟩ := exists_ok_of_map built
  obtain ⟨whole, sums, -⟩ := totals_accrue.2 "G1 X3 Y4 E2\nG1 E1.5\nG0 X0" ⟨.strict, .abort⟩ {}
  obtain ⟨defined, used, retracted⟩ := sums _ List.prefix_rfl
  rw [← (whole t ok).1] at defined used retracted
  have counts := Prod.mk.inj kinds
  refine ⟨t, ok, kinds, used.mpr ?_, retracted.mpr ?_, (defined Totals.distance ?_).2⟩
  · rw [counts.1]
    decide
  · rw [(Prod.mk.inj counts.2).2]
    decide
  · simp [Totals.lengths]

end Toolpath

end PrintPath
