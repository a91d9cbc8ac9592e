import Reckoner.Display.Painter
import Reckoner.Proofs.Display.Drawing

/-!
# The toolkit of the program

A widget is painted by writing over the cells that were there before, so what it shows is said cell
by cell: a text written into a row changes the cells it is written over, each to one of its
characters (`Reckoner.Display.getElem?_writeAt`), and no others. Between its two sides a row of a
block shows its text, one character in a cell, and behind the text what was there
(`Reckoner.Display.Block.char_paintRow`).

So the toolkit keeps the laws of drawing, whatever characters there are
(`Reckoner.Display.Toolkit.lawful_plain`).
-/

namespace Reckoner

namespace Display

/-! ### Cells of a row -/

theorem getElem?_overlay (row : Row) (gs : List Glyph) (i : Nat) :
    (overlay row gs)[i]? = row[i]?.map fun c => gs[i]?.elim c c.write := by
  induction row, gs using overlay.induct generalizing i with
  | case1 c cs g gs ih =>
    cases i with
    | zero => rfl
    | succ i => exact ih i
  | case2 cs => simp [overlay]
  | case3 g gs => simp [overlay]

/-- **Writing changes the cells it writes over**, and no others. -/
theorem getElem?_writeAt (row : Row) (column : Nat) (gs : List Glyph) (i : Nat) :
    (writeAt row column gs)[i]? =
      row[i]?.map fun c => if i < column then c else gs[i - column]?.elim c c.write := by
  rw [writeAt, List.getElem?_append, List.length_take, getElem?_overlay]
  split
  · next hlt =>
    have hcolumn : i < column := by omega
    simp [hcolumn]
  · next hge =>
    rcases Nat.le_total column row.length with hle | hle
    · rw [Nat.min_eq_left hle] at *
      rw [List.getElem?_drop, Nat.add_sub_cancel' (Nat.not_lt.mp hge)]
      simp [hge]
    · -- the row ends in front of the column, and nothing is written
      rw [Nat.min_eq_right hle] at *
      rw [List.drop_of_length_le hle, List.getElem?_nil,
        List.getElem?_eq_none (Nat.not_lt.mp hge)]
      rfl

/-! ### Rows of a block -/

namespace Block

variable (b : Block) (cells : Row) (text : List Glyph)

@[simp]
theorem length_paintRow : (b.paintRow cells text).length = cells.length := by
  simp [paintRow]

/-- **The text of a row** begins behind the side and what is left free there, and goes on up to the
other side. Behind the text is what was there before. -/
theorem char_paintRow {i : Nat} (hi : 1 + b.padding ≤ i) (hlt : i + 1 < cells.length) :
    ((b.paintRow cells text)[i]?).map Cell.char =
      cells[i]?.map fun c => (text[i - (1 + b.padding)]?.map Prod.fst).getD c.char := by
  have hside : i < cells.length - 1 := by omega
  have hroom : i - (1 + b.padding) < cells.length - 2 - b.padding := by omega
  have hfirst : [('│', b.border)][i - 0]? = none := List.getElem?_eq_none (by simpa using by omega)
  rw [paintRow, getElem?_writeAt, getElem?_writeAt, getElem?_writeAt,
    List.getElem?_take_of_lt hroom, hfirst, Option.map_map, Option.map_map, Option.map_map]
  refine congrArg (cells[i]?.map ·) (funext fun c => ?_)
  simp only [Function.comp_apply, Option.elim_none, if_pos hside, if_neg (Nat.not_lt.mpr hi),
    ite_self]
  cases text[i - (1 + b.padding)]? <;> rfl

/-- **At its two ends is a bar.** -/
theorem char_paintRow_side {i : Nat} (h : i = 0 ∨ i + 1 = cells.length) :
    ((b.paintRow cells text)[i]?).map Cell.char = cells[i]?.map fun _ => '│' := by
  rw [paintRow, getElem?_writeAt, getElem?_writeAt, getElem?_writeAt, Option.map_map,
    Option.map_map, Option.map_map]
  refine congrArg (cells[i]?.map ·) (funext fun c => ?_)
  rcases h with rfl | h
  · have hfront : 0 < 1 + b.padding := by omega
    simp only [Function.comp_apply, if_pos hfront, Nat.zero_sub]
    split <;> rfl
  · have hlast : i = cells.length - 1 := by omega
    simp only [Function.comp_apply, hlast, Nat.lt_irrefl, if_false, Nat.sub_self]
    rfl

end Block

/-! ### Rows of a widget -/

namespace Widget

variable (w : Widget)

theorem length_paintRow (height i : Nat) (cells : Row) :
    (w.paintRow height i cells).length = cells.length := by
  rw [paintRow]
  split
  · unfold Alignment.paintRow
    split <;> simp
  · split
    · simp
    · split <;> simp

/-- A row with a side of a block at both ends. -/
theorem paintRow_of_block {b : Block} (hb : w.block? = some b) {height i : Nat} (hi : 0 < i)
    (hlt : i + 1 < height) (cells : Row) :
    w.paintRow height i cells =
      b.paintRow (cells.map (·.restyle w.style)) (glyphs (w.lines.getD (i - 1) [])) := by
  simp only [paintRow, hb]
  rw [if_neg (Nat.ne_of_gt hi), if_neg (Nat.ne_of_lt hlt)]

/-! ### Cells of the screen -/

/-- What is painted over a row are the cells of the area there. -/
theorem exists_charAt?_paint {a : Area} {rows : List Row} {width height : Nat}
    (hrows : IsScreen rows width height) (ha : a.Fits width height) {i j : Nat} (hi : i < a.height)
    (hj : j < a.width) :
    ∃ cells : Row, cells.length = a.width ∧
      (cells[j]?).map Cell.char = charAt? rows (a.x + j) (a.y + i) ∧
      charAt? (w.paint a rows) (a.x + j) (a.y + i) =
        ((w.paintRow a.height i cells)[j]?).map Cell.char := by
  have hwidth := ha.width_le
  have hheight := ha.height_le
  have hy : a.y + i < rows.length := by
    rw [hrows.length_eq]
    omega
  have hx : rows[a.y + i].length = width := hrows.length_row _ (List.getElem_mem hy)
  let cells := (rows[a.y + i].drop a.x).take a.width
  have hlength : cells.length = a.width := by
    rw [List.length_take, List.length_drop, hx]
    omega
  have hpainted : j < (w.paintRow a.height i cells).length := by
    rwa [w.length_paintRow, hlength]
  have hinside : a.y ≤ a.y + i ∧ a.y + i < a.y + a.height := by omega
  refine ⟨cells, hlength, ?_, ?_⟩
  · rw [charAt?, List.getElem?_eq_getElem hy, Option.bind_some, List.getElem?_take_of_lt hj,
      List.getElem?_drop]
  · have hcell : a.x + j < rows[a.y + i].length := by omega
    rw [charAt?, paint, List.getElem?_mapIdx, List.getElem?_eq_getElem hy, Option.map_some,
      Option.bind_some, if_pos hinside, Nat.add_sub_cancel_left, overwrite, List.getElem?_mapIdx,
      List.getElem?_eq_getElem hcell, Option.map_some, if_pos (Nat.le_add_right _ _),
      Nat.add_sub_cancel_left, List.getElem?_eq_getElem hpainted]
    rfl

theorem length_overwrite (row : Row) (start : Nat) (cells : Row) :
    (overwrite row start cells).length = row.length := List.length_mapIdx

/-- The screen keeps its size. -/
theorem isScreen_paint (a : Area) {rows : List Row} {width height : Nat}
    (h : IsScreen rows width height) : IsScreen (w.paint a rows) width height where
  length_eq := by rw [paint, List.length_mapIdx, h.length_eq]
  length_row row hrow := by
    obtain ⟨y, hy, rfl⟩ := List.mem_mapIdx.mp hrow
    have hlength := h.length_row _ (List.getElem_mem hy)
    split
    · rw [length_overwrite, hlength]
    · exact hlength

/-- Nothing is painted outside of the area. -/
theorem charAt?_paint_of_outside {a : Area} (rows : List Row) {x y : Nat} (h : ¬a.Contains x y) :
    charAt? (w.paint a rows) x y = charAt? rows x y := by
  rw [charAt?, charAt?, paint, List.getElem?_mapIdx]
  cases rows[y]? with
  | none => rfl
  | some row =>
    rw [Option.map_some, Option.bind_some, Option.bind_some]
    split
    · next hy =>
      rw [overwrite, List.getElem?_mapIdx, Option.map_map]
      refine congrArg (row[x]?.map ·) (funext fun c => ?_)
      show Cell.char (if a.x ≤ x then _ else c) = c.char
      split
      · next hx =>
        -- the column is behind the cells that are painted
        have hbehind : a.width ≤ x - a.x :=
          Nat.not_lt.mp fun hlt => h ⟨hx, by omega, hy.1, hy.2⟩
        rw [List.getElem?_eq_none]
        · rfl
        · rw [length_paintRow, List.length_take]
          omega
      · rfl
    · rfl

end Widget

/-! ### Areas divided -/

namespace Area

variable (a : Area)

/-- Two parts at the lower end. -/
theorem divide_vertical {m n k : Nat} (h : m + n + k ≤ a.height) :
    a.divide .vertical [.atLeast m, .exactly n, .exactly k] =
      #v[{ a with height := a.height - (n + k) },
        { a with y := a.y + (a.height - (n + k)), height := n },
        { a with y := a.y + (a.height - k), height := k }] := by
  have hleft : m + (a.height - m - n - k) = a.height - (n + k) := by omega
  have hlast : a.height - (n + k) + n = a.height - k := by omega
  refine Vector.toArray_inj.mp ?_
  show (a.parts .vertical 0 [m + (a.height - m - n - k), n, k]).toArray = _
  rw [hleft]
  simp only [parts, part, Nat.add_zero, Nat.zero_add, hlast]

/-- Two shares of the whole. -/
theorem divide_horizontal {p q : Nat} (h : p + q = 100) :
    ∃ n ≤ a.width, a.divide .horizontal [.percentage p, .percentage q] =
      #v[{ a with width := n }, { a with x := a.x + n, width := a.width - n }] := by
  have hshares : a.width * p + a.width * q = a.width * 100 := by rw [← Nat.mul_add, h]
  have hrest : a.width * q / 100 + (a.width - a.width * p / 100 - a.width * q / 100) =
      a.width - a.width * p / 100 := by omega
  refine ⟨a.width * p / 100, by omega, Vector.toArray_inj.mp ?_⟩
  show (a.parts .horizontal 0 [a.width * p / 100,
    a.width * q / 100 + (a.width - a.width * p / 100 - a.width * q / 100)]).toArray = _
  rw [hrest]
  simp only [parts, part, Nat.add_zero, Nat.zero_add]

end Area

/-! ### The laws of drawing -/

/-- **The toolkit of the program is lawful**, and takes every character to be narrow. -/
theorem Toolkit.lawful_plain : Toolkit.plain.Lawful fun _ => True where
  narrow_ascii _ _ _ := trivial
  split_rows a _ _ _ h := a.divide_vertical h
  split_columns a _ _ h := a.divide_horizontal h
  render_isScreen w a _ _ _ h := w.isScreen_paint a h
  render_outside w _ rows _ _ h := w.charAt?_paint_of_outside rows h
  render_side w b a rows width height x y hrows ha hwidth hb hx hy hlt := by
    obtain ⟨i, rfl⟩ := Nat.exists_eq_add_of_le (Nat.le_of_lt hy)
    obtain ⟨j, rfl⟩ := Nat.exists_eq_add_of_le (show a.x ≤ x by omega)
    have hi : 0 < i ∧ i + 1 < a.height := by omega
    have hj : j < a.width := by omega
    obtain ⟨cells, hlength, -, hpainted⟩ :=
      w.exists_charAt?_paint hrows ha (Nat.lt_of_succ_lt hi.2) hj
    have hside : j = 0 ∨ j + 1 = (cells.map (·.restyle w.style)).length := by
      rw [List.length_map, hlength]
      omega
    refine hpainted.trans ?_
    rw [w.paintRow_of_block hb hi.1 hi.2, b.char_paintRow_side _ _ hside, List.getElem?_map,
      List.getElem?_eq_getElem (hlength ▸ hj)]
    rfl
  render_text w b a rows width height i j hrows ha hb hleft hnarrow hj hi := by
    have hrow : 0 < 1 + i ∧ 1 + i + 1 < a.height := by omega
    obtain ⟨cells, hlength, hcells, hpainted⟩ :=
      w.exists_charAt?_paint hrows ha (show 1 + i < a.height by omega)
        (show 1 + b.padding + j < a.width by omega)
    have hlt : 1 + b.padding + j + 1 < (cells.map (·.restyle w.style)).length := by
      rw [List.length_map, hlength]
      omega
    rw [Nat.add_assoc a.x, Nat.add_assoc a.y]
    refine hpainted.trans ?_
    rw [← hcells, w.paintRow_of_block hb hrow.1 hrow.2,
      b.char_paintRow _ _ (Nat.le_add_right _ _) hlt, List.getElem?_map, Option.map_map,
      Option.map_map, Nat.add_sub_cancel_left, Nat.add_sub_cancel_left, columns, List.getElem?_map]
    rfl

end Display

end Reckoner
