import Reckoner.Display.Widget

/-!
# What is drawn

The workbench is drawn with a toolkit that it knows nothing of but a few laws
(`Reckoner.Display.Toolkit.Lawful`): how an area is divided into rows and into columns, that drawing
in an area leaves the cells outside of it as they are, and what is to be seen of a block and of the
text in it. The text is spoken of as far as its characters are narrow, each of them in one cell
whatever stands next to it; which ones are is a matter of the toolkit too.

A widget whose area is apart from all others is then drawn as on an empty screen, and if it has a
block, its lines are shown in it (`Reckoner.Display.Toolkit.Lawful.showsLines_drawAll`).
-/

namespace Reckoner

namespace Display

/-! ### Columns -/

/-- The characters of a line of the screen, one for each column. -/
def columns (l : Line) : List Char := (glyphs l).map Prod.fst

theorem columns_nil : columns [] = [] := rfl

theorem columns_cons (s : Span) (l : Line) : columns (s :: l) = s.text.toList ++ columns l := by
  rw [columns, glyphs, List.flatMap_cons, List.map_append, List.map_map]
  congr 1
  exact List.map_id _

/-! ### Cells of the screen -/

/-- **The character on the screen** in a column of a row. -/
def charAt? (rows : List Row) (x y : Nat) : Option Char :=
  (rows[y]?.bind fun row => row[x]?).map Cell.char

/-- Nothing is on an empty screen. -/
theorem charAt?_emptyScreen {width height x y : Nat} (hx : x < width) (hy : y < height) :
    charAt? (emptyScreen width height) x y = some ' ' := by
  simp [charAt?, emptyScreen, hx, hy]

/-- **A screen of a size**: so many rows with so many cells each. -/
structure IsScreen (rows : List Row) (width height : Nat) : Prop where
  /-- The number of rows. -/
  length_eq : rows.length = height
  /-- The number of cells in each of them. -/
  length_row : ∀ row ∈ rows, row.length = width

theorem isScreen_emptyScreen (width height : Nat) :
    IsScreen (emptyScreen width height) width height where
  length_eq := List.length_replicate
  length_row row hrow := by
    rw [List.eq_of_mem_replicate hrow, List.length_replicate]

/-- **The area is on the screen.** -/
structure Area.Fits (a : Area) (width height : Nat) : Prop where
  /-- It has no column behind the screen. -/
  width_le : a.x + a.width ≤ width
  /-- It has no row below the screen. -/
  height_le : a.y + a.height ≤ height

/-- **The cells of an area.** -/
structure Area.Contains (a : Area) (x y : Nat) : Prop where
  /-- The column is not in front of the area. -/
  x_le : a.x ≤ x
  /-- It is not behind it. -/
  lt_width : x < a.x + a.width
  /-- The row is not above it. -/
  y_le : a.y ≤ y
  /-- It is not below it. -/
  lt_height : y < a.y + a.height

/-- **Two areas are apart**: they have no cell in common. -/
def Area.Apart (a b : Area) : Prop := ∀ x y, a.Contains x y → ¬b.Contains x y

/-! ### Blocks on the screen -/

/-- **The lines in a block**, as far as their characters are narrow: one below the other from the
first row inside of the block on, each behind so many free cells, and blanks behind it. Rows for
which there is no line are blank. -/
def ShowsLines (narrow : Char → Prop) (rows : List Row) (a : Area) (padding : Nat)
    (lines : List Line) : Prop :=
  ∀ i j, i + 2 < a.height → padding + j + 2 < a.width →
    (∀ c ∈ columns (lines.getD i []), narrow c) →
    charAt? rows (a.x + (1 + padding) + j) (a.y + 1 + i) =
      some ((columns (lines.getD i []))[j]?.getD ' ')

/-- **The sides of a block**, between its corners. -/
def ShowsSides (rows : List Row) (a : Area) : Prop :=
  ∀ i, 0 < i → i + 1 < a.height → charAt? rows a.x (a.y + i) = some '│' ∧
    charAt? rows (a.x + a.width - 1) (a.y + i) = some '│'

/-! ### Laws of drawing -/

/-- **What is relied on of a toolkit**, and of the characters that it takes to be narrow. -/
structure Toolkit.Lawful (kit : Toolkit) (narrow : Char → Prop) : Prop where
  /-- The printable characters of ASCII are narrow. -/
  narrow_ascii : ∀ c : Char, 0x20 ≤ c.toNat → c.toNat ≤ 0x7e → narrow c
  /-- Two parts of given heights are at the lower end, where there is room for them, and what is
  left is above. -/
  split_rows : ∀ (a : Area) (m n k : Nat), m + n + k ≤ a.height →
    kit.split .vertical [.atLeast m, .exactly n, .exactly k] a =
      #v[{ a with height := a.height - (n + k) },
        { a with y := a.y + (a.height - (n + k)), height := n },
        { a with y := a.y + (a.height - k), height := k }]
  /-- Two shares of the whole width are beside each other, and nothing is left. -/
  split_columns : ∀ (a : Area) (p q : Nat), p + q = 100 → ∃ n ≤ a.width,
    kit.split .horizontal [.percentage p, .percentage q] a =
      #v[{ a with width := n }, { a with x := a.x + n, width := a.width - n }]
  /-- The screen keeps its size. -/
  render_isScreen : ∀ (w : Widget) (a : Area) (rows : List Row) (width height : Nat),
    IsScreen rows width height → IsScreen (kit.render w a rows) width height
  /-- Nothing changes outside of the area of a widget. -/
  render_outside : ∀ (w : Widget) (a : Area) (rows : List Row) (x y : Nat), ¬a.Contains x y →
    charAt? (kit.render w a rows) x y = charAt? rows x y
  /-- Between its upper and its lower side, a block has a bar at the left and at the right. -/
  render_side : ∀ (w : Widget) (b : Block) (a : Area) (rows : List Row) (width height x y : Nat),
    IsScreen rows width height → a.Fits width height → 2 ≤ a.width → w.block? = some b →
    x = a.x ∨ x + 1 = a.x + a.width → a.y < y → y + 1 < a.y + a.height →
    charAt? (kit.render w a rows) x y = some '│'
  /-- Inside of a block are the lines from its upper left corner on, each in a row and each narrow
  character in a cell. Behind the end of a line the characters stay as they are. -/
  render_text : ∀ (w : Widget) (b : Block) (a : Area) (rows : List Row) (width height i j : Nat),
    IsScreen rows width height → a.Fits width height → w.block? = some b → w.alignment = .left →
    (∀ c ∈ columns (w.lines.getD i []), narrow c) →
    b.padding + j + 2 < a.width → i + 2 < a.height →
    charAt? (kit.render w a rows) (a.x + (1 + b.padding) + j) (a.y + 1 + i) =
      (charAt? rows (a.x + (1 + b.padding) + j) (a.y + 1 + i)).map fun c =>
        (columns (w.lines.getD i []))[j]?.getD c

/-! ### Frames -/

namespace Toolkit

variable {kit : Toolkit} {narrow : Char → Prop}

theorem drawAll_append (kit : Toolkit) (ps qs : List (Widget × Area)) (rows : List Row) :
    kit.drawAll (ps ++ qs) rows = kit.drawAll qs (kit.drawAll ps rows) := List.foldl_append

namespace Lawful

/-- Widgets next to a cell do not change it. -/
theorem charAt?_drawAll_of_outside (hkit : kit.Lawful narrow) {ps : List (Widget × Area)}
    {x y : Nat} (h : ∀ p ∈ ps, ¬p.2.Contains x y) (rows : List Row) :
    charAt? (kit.drawAll ps rows) x y = charAt? rows x y := by
  induction ps generalizing rows with
  | nil => rfl
  | cons p ps ih =>
    refine (ih (fun q hq => h q (List.mem_cons_of_mem _ hq)) _).trans ?_
    exact hkit.render_outside p.1 p.2 rows x y (h p List.mem_cons_self)

theorem isScreen_drawAll (hkit : kit.Lawful narrow) (ps : List (Widget × Area)) {rows : List Row}
    {width height : Nat} (h : IsScreen rows width height) :
    IsScreen (kit.drawAll ps rows) width height := by
  induction ps generalizing rows with
  | nil => exact h
  | cons p ps ih => exact ih (hkit.render_isScreen p.1 p.2 rows width height h)

/-- **A widget apart from all others** is drawn as on an empty screen. -/
theorem exists_charAt?_drawAll (hkit : kit.Lawful narrow) {a : Area} {width height : Nat}
    (ps : List (Widget × Area)) (w : Widget) (qs : List (Widget × Area)) (ha : a.Fits width height)
    (hapart : ∀ p ∈ ps ++ qs, a.Apart p.2) :
    ∃ rows, IsScreen rows width height ∧ ∀ x y, a.Contains x y → charAt? rows x y = some ' ' ∧
      charAt? (kit.drawAll (ps ++ (w, a) :: qs) (emptyScreen width height)) x y =
        charAt? (kit.render w a rows) x y := by
  refine ⟨kit.drawAll ps (emptyScreen width height),
    hkit.isScreen_drawAll ps (isScreen_emptyScreen width height), fun x y hxy => ⟨?_, ?_⟩⟩
  · rw [hkit.charAt?_drawAll_of_outside
      fun p hp => hapart p (List.mem_append_left _ hp) x y hxy]
    exact charAt?_emptyScreen (Nat.lt_of_lt_of_le hxy.lt_width ha.width_le)
      (Nat.lt_of_lt_of_le hxy.lt_height ha.height_le)
  · rw [drawAll_append]
    exact hkit.charAt?_drawAll_of_outside
      (fun q hq => hapart q (List.mem_append_right _ hq) x y hxy) _

/-- **Its lines are shown**, if it has a block. -/
theorem showsLines_drawAll (hkit : kit.Lawful narrow) {b : Block} {a : Area} {width height : Nat}
    (ps : List (Widget × Area)) (w : Widget) (qs : List (Widget × Area)) (ha : a.Fits width height)
    (hapart : ∀ p ∈ ps ++ qs, a.Apart p.2) (hb : w.block? = some b) (hleft : w.alignment = .left) :
    ShowsLines narrow (kit.drawAll (ps ++ (w, a) :: qs) (emptyScreen width height)) a b.padding
      w.lines := by
  intro i j hi hj hnarrow
  obtain ⟨rows, hrows, hcells⟩ := hkit.exists_charAt?_drawAll ps w qs ha hapart
  have hxy : a.Contains (a.x + (1 + b.padding) + j) (a.y + 1 + i) := by
    constructor <;> omega
  obtain ⟨hblank, hdrawn⟩ := hcells _ _ hxy
  rw [hdrawn, hkit.render_text w b a rows width height i j hrows ha hb hleft hnarrow hj hi, hblank]
  rfl

/-- **So are its sides.** -/
theorem showsSides_drawAll (hkit : kit.Lawful narrow) {b : Block} {a : Area} {width height : Nat}
    (ps : List (Widget × Area)) (w : Widget) (qs : List (Widget × Area)) (ha : a.Fits width height)
    (hapart : ∀ p ∈ ps ++ qs, a.Apart p.2) (hb : w.block? = some b) (hwidth : 2 ≤ a.width) :
    ShowsSides (kit.drawAll (ps ++ (w, a) :: qs) (emptyScreen width height)) a := by
  intro i hpos hlt
  obtain ⟨rows, hrows, hcells⟩ := hkit.exists_charAt?_drawAll ps w qs ha hapart
  have hside := fun x hx => hkit.render_side w b a rows width height x (a.y + i) hrows ha hwidth hb
    hx (by omega) (by omega)
  refine ⟨?_, ?_⟩
  · rw [(hcells _ _ ⟨by omega, by omega, by omega, by omega⟩).2]
    exact hside _ (.inl rfl)
  · rw [(hcells _ _ ⟨by omega, by omega, by omega, by omega⟩).2]
    exact hside _ (.inr (by omega))

end Lawful

end Toolkit

end Display

end Reckoner
