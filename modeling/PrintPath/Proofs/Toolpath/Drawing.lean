import PrintPath.Proofs.Number.Whole
import PrintPath.Proofs.Toolpath.Moves

/-!
# What the drawing options decide

The drawing options pick the moves that become segments, and nothing else depends on
them. A move that deposits material is drawn under all options, so that the layers
and the totals are those of the moves alone.
-/

namespace PrintPath

/-! ## Layers of heights -/

/-- The number of a layer is the height in steps of the grid, rounded and cast. -/
theorem layerAt_eq (z : Float) : layerAt z = Number.wholeInt64 (z / layerResolution) := by
  unfold layerAt Number.wholeInt64
  generalize z / layerResolution = x
  cases parted : Number.parts x with
  | nan => rw [if_pos (Number.isNaN_of_parts parted)]
  | infinity negative =>
      obtain rfl := Number.eq_of_parts_infinity parted
      cases negative <;> decide +kernel
  | finite negative m q =>
      have finite := Number.isFinite_of_parts parted
      have defined := Number.isNaN_of_isFinite finite
      rw [if_neg (by rw [defined]; decide), if_pos finite, Number.value, parted]
      have product : (0 : ℚ) ≤ m * 2 ^ q := by positivity
      unfold Number.leastInt64 Number.greatestInt64
      cases negative with
      | false =>
          dsimp only
          rw [Number.roundAway_wholeNearest]
          simp only [Bool.false_eq_true, if_false]
          omega
      | true =>
          dsimp only
          rw [Number.roundAway_neg product, Number.roundAway_wholeNearest]
          simp only [if_true]
          omega

namespace Toolpath

/-! ## Options and what they do not touch -/

theorem draws_eq (options : DrawingOptions) (m : Move) :
    draws options m =
      ((!options.skipDegenerate || !m.isStationary) && (options.includeTravel || m.extruding)) := by
  rw [draws, Bool.not_and]

/-- No options keep a move from being drawn that deposits material. -/
theorem draws_of_deposits (options : DrawingOptions) {m : Move} (h : deposits m = true) :
    draws options m = true := by
  obtain ⟨extruding, moving⟩ := (Bool.and_eq_true _ _).mp h
  rw [draws_eq, extruding, moving, Bool.or_true, Bool.or_true]
  rfl

theorem layers_add (totals : Totals) (m : Move) : (totals.add m).layers = totals.layers := by
  unfold Totals.add
  dsimp only
  cases m.kind <;> rfl

/-- To the layers and the totals it makes no difference that a move is not drawn: it
deposits nothing then. -/
theorem push_like_addLayer (t : Toolpath) (m : Move) :
    (t.push m).layers = (addLayer { t with totals := t.totals.add m } m).layers ∧
      (t.push m).totals = (addLayer { t with totals := t.totals.add m } m).totals := by
  unfold push
  dsimp only
  by_cases drawn : draws t.options m = true
  · rw [if_pos drawn]
    exact ⟨rfl, rfl⟩
  · have nothing : ¬ deposits m = true := fun deposited => drawn (draws_of_deposits _ deposited)
    rw [if_neg drawn, addLayer, if_neg nothing]
    exact ⟨rfl, rfl⟩

theorem layers_push (t : Toolpath) (m : Move) :
    (t.push m).layers = if deposits m then t.layers.insert m.finish.z else t.layers := by
  rw [(push_like_addLayer t m).1, addLayer]
  split <;> rfl

theorem totals_push (t : Toolpath) (m : Move) :
    (t.push m).totals =
      if deposits m then
        { t.totals.add m with layers := (t.layers.insert m.finish.z).size }
      else t.totals.add m := by
  rw [(push_like_addLayer t m).2, addLayer]
  split <;> rfl

/-- Toolpaths with the same totals and layers keep them the same, whatever their options. -/
theorem foldl_push_congr {t t' : Toolpath} (totals : t.totals = t'.totals)
    (layers : t.layers = t'.layers) (moves : List Move) :
    (moves.foldl push t).totals = (moves.foldl push t').totals ∧
      (moves.foldl push t).layers = (moves.foldl push t').layers := by
  induction moves generalizing t t' with
  | nil => exact ⟨totals, layers⟩
  | cons move rest ih =>
      refine ih ?_ ?_
      · rw [totals_push, totals_push, totals, layers]
      · rw [layers_push, layers_push, layers]

/-! ## The layers of some moves -/

/-- The number of layers in the totals is up to date. -/
theorem layers_totals_foldl_push {t : Toolpath} (h : t.totals.layers = t.layers.size)
    (moves : List Move) :
    (moves.foldl push t).totals.layers = (moves.foldl push t).layers.size := by
  induction moves generalizing t with
  | nil => exact h
  | cons move rest ih =>
      refine ih ?_
      rw [totals_push, layers_push]
      by_cases deposited : deposits move = true
      · rw [if_pos deposited, if_pos deposited]
      · rw [if_neg deposited, if_neg deposited, layers_add, h]

theorem mem_keys_foldl_push (t : Toolpath) (moves : List Move) (k : Int) :
    k ∈ (moves.foldl push t).layers.keys ↔
      k ∈ t.layers.keys ∨ k ∈ (moves.filter deposits).map (layerAt ·.finish.z) := by
  induction moves generalizing t with
  | nil => simp
  | cons move rest ih =>
      rw [List.foldl_cons, ih, layers_push]
      by_cases deposited : deposits move = true
      · rw [if_pos deposited, List.filter_cons_of_pos deposited, List.map_cons, List.mem_cons,
          ← or_assoc, or_comm (a := k ∈ t.layers.keys)]
        exact or_congr_left mem_insertAscending
      · rw [if_neg deposited, List.filter_cons_of_neg deposited]

/-- The layers are the distinct numbers of the deposited heights, in ascending order. -/
theorem keys_ofMoves (options : DrawingOptions) (moves : List Move) :
    (ofMoves options moves).layers.keys =
      ((moves.filter deposits).map (layerAt ·.finish.z)).toFinset.sort (· ≤ ·) := by
  have ascending := (ofMoves options moves).layers.ascending
  have members : (ofMoves options moves).layers.keys.toFinset =
      ((moves.filter deposits).map (layerAt ·.finish.z)).toFinset := by
    ext k
    rw [List.mem_toFinset, List.mem_toFinset]
    refine (mem_keys_foldl_push _ moves k).trans (or_iff_right ?_)
    exact List.not_mem_nil
  rw [← members]
  exact ((List.toFinset_sort (· ≤ ·) (ascending.imp ne_of_lt)).mpr
    (ascending.imp le_of_lt)).symm

/-! ## The options -/

theorem segments_ofMoves (options : DrawingOptions) (moves : List Move) :
    (ofMoves options moves).segments.toList =
      (moves.filter (draws options)).map Segment.ofMove :=
  segments_foldl_push _ moves

theorem isExtrusion_ofMove (m : Move) : (Segment.ofMove m).isExtrusion = m.extruding := by
  show (m.kind == .extrusion) = m.extruding
  unfold Move.kind
  cases m.extruding with
  | true => rfl
  | false =>
      rw [if_neg (by decide)]
      split <;> rfl

/-- **The drawing options filter and nothing else.** The segments are those of the moves
that the options let through, in order, and they part into those that extrude and the
others. The totals and the layers are the same under all options: one layer for every
number that the heights of the depositing moves are rounded to. -/
theorem drawing_options_filter (options : DrawingOptions) (moves : List Move) :
    let t := ofMoves options moves
    let drawn := moves.filter fun m =>
      (!options.skipDegenerate || !m.isStationary) && (options.includeTravel || m.extruding)
    let numbers := (moves.filter fun m => m.extruding && !m.isStationary).map fun m =>
      Number.wholeInt64 (m.finish.z / layerResolution)
    t.segments.toList = drawn.map Segment.ofMove ∧
    t.extrusionSegments = (drawn.filter (·.extruding)).map Segment.ofMove ∧
    t.travelSegments = (drawn.filter (!·.extruding)).map Segment.ofMove ∧
    (t.extrusionSegments ++ t.travelSegments).Perm t.segments.toList ∧
    (∀ options', (ofMoves options' moves).totals = t.totals ∧
      (ofMoves options' moves).layerHeights = t.layerHeights) ∧
    t.layerHeights = (numbers.toFinset.sort (· ≤ ·)).map layerHeight ∧
    t.totals.layers = t.layerHeights.length ∧
    t.totals.layers = numbers.toFinset.card := by
  intro t drawn numbers
  have segments : t.segments.toList = drawn.map Segment.ofMove := by
    rw [segments_ofMoves]
    exact congrArg _ (List.filter_congr fun m _ => draws_eq options m)
  have heights : t.layerHeights = (numbers.toFinset.sort (· ≤ ·)).map layerHeight := by
    show t.layers.keys.map layerHeight = _
    rw [keys_ofMoves]
    simp only [layerAt_eq]
    rfl
  have count : t.totals.layers = t.layerHeights.length := by
    show t.totals.layers = (t.layers.keys.map layerHeight).length
    rw [List.length_map]
    exact layers_totals_foldl_push rfl moves
  refine ⟨segments, ?_, ?_, List.filter_append_perm _ _, fun options' => ?_, heights, count, ?_⟩
  · rw [extrusionSegments, segments, List.filter_map]
    exact congrArg _ (List.filter_congr fun m _ => isExtrusion_ofMove m)
  · rw [travelSegments, segments, List.filter_map]
    exact congrArg _ (List.filter_congr fun m _ => congrArg (!·) (isExtrusion_ofMove m))
  · have sameTotals : (empty options').totals = (empty options).totals := rfl
    have sameLayers : (empty options').layers = (empty options).layers := rfl
    obtain ⟨totals, layers⟩ := foldl_push_congr sameTotals sameLayers moves
    exact ⟨totals, congrArg Layers.heights layers⟩
  · rw [count, heights, List.length_map, Finset.length_sort]

end Toolpath

end PrintPath
