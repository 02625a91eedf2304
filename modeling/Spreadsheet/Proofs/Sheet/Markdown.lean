import Mathlib.Data.List.Forall2
import Spreadsheet.Proofs.Sheet.Render
import Spreadsheet.Sheet.Markdown

/-!
# Reading Markdown tables

A reader of tables beside the writer. It takes a backslash and the character behind it for one `Glyph`, cuts lines at
line feeds and cells at bare bars, and takes the padding and the emphasis off. What is written into a cell `Fits`: no
escape, no bar and no line feed reaches beyond the cell, so a table has the lines and bars that it should have, and each
cell reads back as its value on one line (`markdown_reads_back`).
-/

namespace Spreadsheet

namespace Markdown

/-! ### A reader -/

/-- A character of a Markdown text, alone or behind a backslash that escapes it. -/
inductive Glyph
  | bare (c : Char)
  | escaped (c : Char)
  deriving DecidableEq, Repr

def Glyph.char : Glyph → Char
  | bare c | escaped c => c

def glyphs : Text → List Glyph
  | [] => []
  | [c] => [.bare c]
  | c :: d :: t => if c = '\\' then .escaped d :: glyphs t else .bare c :: glyphs (d :: t)

/-- The parts of a line between its bars. -/
def fields (line : Text) : List (List Glyph) := (glyphs line).splitOn (.bare '|')

/-- The cells of a line. Nothing stands in front of its first bar and behind its last one, and the first field between
them is the row number. -/
def cells (line : Text) : List (List Glyph) := ((fields line).drop 2).dropLast

/-- What stands between two marks, if a text begins and ends with them. -/
def between? (m t : List Glyph) : Option (List Glyph) :=
  let inner := (t.drop m.length).take (t.length - 2 * m.length)
  if t = m ++ inner ++ m then some inner else none

/-- What a text is without the emphasis of a style. -/
def plain? (style : Style) (t : List Glyph) : Option (List Glyph) := do
  let t ← if style.bold then between? [.bare '*', .bare '*'] t else some t
  if style.italic then between? [.bare '_'] t else some t

/-- What a field shows without the space on both sides and without the emphasis of the style. Where there is nothing to
show there is no emphasis. -/
def content? (style : Style) (field : List Glyph) : Option (List Glyph) := do
  let t ← between? [.bare ' '] field
  if t.isEmpty then some t else plain? style t

/-- A text on one line: a space for each line feed, and no carriage returns. -/
def oneLine (t : Text) : Text := (t.filter (· ≠ '\r')).map fun c => if c = '\n' then ' ' else c

/-- The content of a field stands for the value of a cell on one line, and whatever could be markup is escaped. -/
def Shows (field : List Glyph) (v : Shown) : Prop :=
  ∃ t, content? v.style field = some t ∧ t.map Glyph.char = oneLine v.value ∧
    ∀ c, isSpecial c = true → .bare c ∉ t

/-! ### Glyphs of texts -/

variable {t u m blank : Text} {ts : List Text} {c : Char}

theorem glyphs_cons (hc : c ≠ '\\') (t : Text) : glyphs (c :: t) = .bare c :: glyphs t := by
  cases t with
  | nil => rfl
  | cons d t => rw [glyphs, if_neg hc]

theorem glyphs_append (h : '\\' ∉ t) (u : Text) : glyphs (t ++ u) = t.map .bare ++ glyphs u := by
  induction t with
  | nil => rfl
  | cons c t ih =>
    rw [List.mem_cons, not_or] at h
    rw [List.cons_append, glyphs_cons (Ne.symm h.1), ih h.2, List.map_cons, List.cons_append]

theorem glyphs_of_notMem (h : '\\' ∉ t) : glyphs t = t.map .bare := by
  simpa [glyphs] using glyphs_append h []

theorem glyphs_eq_nil_iff : glyphs t = [] ↔ t = [] := by
  cases t with
  | nil => simp [glyphs]
  | cons c t =>
    cases t with
    | nil => simp [glyphs]
    | cons d t =>
      rw [glyphs]
      split <;> simp

/-- A text that may stand in a cell: its last escape ends with it, and it has no bare bar and no line feed. -/
structure Fits (t : Text) : Prop where
  whole : ∀ u, glyphs (t ++ u) = glyphs t ++ glyphs u
  barless : .bare '|' ∉ glyphs t
  flat : '\n' ∉ t

theorem fits_of_notMem (hescape : '\\' ∉ t) (hbar : '|' ∉ t) (hflat : '\n' ∉ t) : Fits t where
  whole u := by rw [glyphs_append hescape, glyphs_of_notMem hescape]
  barless := by
    rw [glyphs_of_notMem hescape]
    simpa using hbar
  flat := hflat

theorem Fits.append (ht : Fits t) (hu : Fits u) : Fits (t ++ u) where
  whole v := by rw [List.append_assoc, ht.whole, hu.whole, ht.whole, List.append_assoc]
  barless := by
    rw [ht.whole, List.mem_append, not_or]
    exact ⟨ht.barless, hu.barless⟩
  flat := by
    rw [List.mem_append, not_or]
    exact ⟨ht.flat, hu.flat⟩

/-! ### What is written into a cell -/

theorem fits_escapeChar (c : Char) : Fits (escapeChar c) := by
  unfold escapeChar
  split
  · next hc =>
    refine ⟨fun u => ?_, ?_, ?_⟩
    · simp [glyphs]
    · simp [glyphs]
    · have hne : c ≠ '\n' := by rintro rfl; cases hc
      simp [hne.symm]
  · next hc =>
    have hne {d : Char} (hd : isSpecial d = true) : d ≠ c := by rintro rfl; exact hc hd
    split
    · exact fits_of_notMem (by decide) (by decide) (by decide)
    · split
      · exact fits_of_notMem (by decide) (by decide) (by decide)
      · next hline _ =>
        refine fits_of_notMem ?_ ?_ ?_
        · simpa using hne (d := '\\') (by decide)
        · simpa using hne (d := '|') (by decide)
        · simpa using Ne.symm hline

theorem fits_escape (t : Text) : Fits (escape t) := by
  induction t with
  | nil => exact fits_of_notMem List.not_mem_nil List.not_mem_nil List.not_mem_nil
  | cons c t ih => exact (fits_escapeChar c).append ih

theorem glyphs_escape (c : Char) (t : Text) :
    glyphs (escape (c :: t)) = glyphs (escapeChar c) ++ glyphs (escape t) := (fits_escapeChar c).whole _

theorem char_escape (t : Text) : (glyphs (escape t)).map Glyph.char = oneLine t := by
  induction t with
  | nil => rfl
  | cons c t ih =>
    have hchar : (glyphs (escapeChar c)).map Glyph.char = oneLine [c] := by
      unfold escapeChar
      split
      · next hc =>
        have hline : c ≠ '\n' := by rintro rfl; cases hc
        have hreturn : c ≠ '\r' := by rintro rfl; cases hc
        simp [glyphs, Glyph.char, oneLine, hline, hreturn]
      · split
        · next hline => subst hline; rfl
        · split
          · next hreturn => subst hreturn; rfl
          · next hline hreturn => simp [glyphs, Glyph.char, oneLine, hline, hreturn]
    rw [glyphs_escape, List.map_append, ih, hchar, oneLine, oneLine, oneLine, ← List.map_append, ← List.filter_append]
    rfl

theorem bare_notMem_escape (hc : isSpecial c = true) (t : Text) : .bare c ∉ glyphs (escape t) := by
  induction t with
  | nil => exact List.not_mem_nil
  | cons d t ih =>
    have hchar : .bare c ∉ glyphs (escapeChar d) := by
      unfold escapeChar
      split
      · simp [glyphs]
      · next hd =>
        have hne : c ≠ d := by rintro rfl; exact hd hc
        have hspace : c ≠ ' ' := by rintro rfl; cases hc
        split
        · simpa [glyphs] using hspace
        · split
          · exact List.not_mem_nil
          · simpa [glyphs] using hne
    rw [glyphs_escape, List.mem_append, not_or]
    exact ⟨hchar, ih⟩

/-! ### Padding and emphasis -/

theorem between?_append (m t : List Glyph) : between? m (m ++ t ++ m) = some t := by
  have hlength : (m ++ t ++ m).length - 2 * m.length = t.length := by
    simp only [List.length_append]
    omega
  have hinner : ((m ++ t ++ m).drop m.length).take ((m ++ t ++ m).length - 2 * m.length) = t := by
    rw [hlength, List.append_assoc, List.drop_left, List.take_left]
  simp only [between?, hinner, if_true]

theorem Fits.mark (ht : Fits t) (hm : Fits m) : Fits (mark m t) := (hm.append ht).append hm

theorem between?_mark (ht : Fits t) (hm : Fits m) : between? (glyphs m) (glyphs (mark m t)) = some (glyphs t) := by
  have hglyphs : glyphs (mark m t) = glyphs m ++ glyphs t ++ glyphs m := by
    rw [Markdown.mark, List.append_assoc, hm.whole, ht.whole, List.append_assoc]
  rw [hglyphs, between?_append]

theorem fits_italic : Fits ['_'] := fits_of_notMem (by decide) (by decide) (by decide)

theorem fits_bold : Fits ['*', '*'] := fits_of_notMem (by decide) (by decide) (by decide)

theorem fits_space : Fits [' '] := fits_of_notMem (by decide) (by decide) (by decide)

/-- A text with the emphasis of a style. -/
def emphasize (style : Style) (t : Text) : Text :=
  let t := if style.italic then mark ['_'] t else t
  if style.bold then mark ['*', '*'] t else t

theorem cell_eq (v : Shown) :
    cell v = if escape v.value = [] then [] else emphasize v.style (escape v.value) := by
  unfold cell
  cases escape v.value <;> rfl

theorem fits_emphasize (ht : Fits t) (style : Style) : Fits (emphasize style t) := by
  unfold emphasize
  cases style.italic with
  | true =>
    cases style.bold with
    | true => exact (ht.mark fits_italic).mark fits_bold
    | false => exact ht.mark fits_italic
  | false =>
    cases style.bold with
    | true => exact ht.mark fits_bold
    | false => exact ht

theorem plain?_emphasize (ht : Fits t) (style : Style) :
    plain? style (glyphs (emphasize style t)) = some (glyphs t) := by
  have hitalic {u : Text} (hu : Fits u) : between? [.bare '_'] (glyphs (mark ['_'] u)) = some (glyphs u) :=
    between?_mark hu fits_italic
  have hbold {u : Text} (hu : Fits u) : between? [.bare '*', .bare '*'] (glyphs (mark ['*', '*'] u)) = some (glyphs u) :=
    between?_mark hu fits_bold
  unfold plain? emphasize
  cases style.italic with
  | true =>
    cases style.bold with
    | true => simp [hbold (ht.mark fits_italic), hitalic ht]
    | false => simp [hitalic ht]
  | false =>
    cases style.bold with
    | true => simp [hbold ht]
    | false => simp

theorem emphasize_ne_nil (ht : t ≠ []) (style : Style) : emphasize style t ≠ [] := by
  unfold emphasize
  cases style.italic <;> cases style.bold <;> simp [mark, ht]

theorem fits_cell (v : Shown) : Fits (cell v) := by
  rw [cell_eq]
  split
  · exact fits_escape []
  · exact fits_emphasize (fits_escape _) _

/-- A padded cell shows its value. -/
theorem shows_cell (v : Shown) : Shows (glyphs (mark [' '] (cell v))) v := by
  refine ⟨glyphs (escape v.value), ?_, char_escape _, fun c hc => bare_notMem_escape hc _⟩
  have hpadding : between? [.bare ' '] (glyphs (mark [' '] (cell v))) = some (glyphs (cell v)) :=
    between?_mark (fits_cell v) fits_space
  rw [content?, hpadding, Option.bind_eq_bind, Option.bind_some, cell_eq]
  by_cases hempty : escape v.value = []
  · rw [if_pos hempty, hempty]
    rfl
  · have hne : ¬ (glyphs (emphasize v.style (escape v.value))).isEmpty := by
      rw [List.isEmpty_iff, glyphs_eq_nil_iff]
      exact emphasize_ne_nil hempty _
    rw [if_neg hempty, if_neg hne, plain?_emphasize (fits_escape _)]

/-! ### Lines -/

def bars (blank : Text) (ts : List Text) : Text := '|' :: ts.flatMap fun t => mark blank t ++ ['|']

theorem line_eq (blank : Text) (ts : List Text) : line blank ts = bars blank ts ++ ['\n'] := rfl

/-- Cutting behind every part gives the parts back. -/
theorem splitOn_flatMap {α : Type} [BEq α] [LawfulBEq α] {x : α} {parts : List (List α)} (h : ∀ p ∈ parts, x ∉ p) :
    (parts.flatMap (· ++ [x])).splitOn x = parts ++ [[]] := by
  induction parts with
  | nil => rfl
  | cons p parts ih =>
    rw [List.forall_mem_cons] at h
    rw [List.flatMap_cons, List.append_assoc, List.singleton_append, List.splitOn_append_cons_self_of_not_mem h.1,
      ih h.2, List.cons_append]

theorem count_flatMap {α : Type} [BEq α] [LawfulBEq α] {x : α} {parts : List (List α)} (h : ∀ p ∈ parts, x ∉ p) :
    (parts.flatMap (· ++ [x])).count x = parts.length := by
  induction parts with
  | nil => rfl
  | cons p parts ih =>
    rw [List.forall_mem_cons] at h
    rw [List.flatMap_cons, List.count_append, List.count_append, List.count_eq_zero_of_not_mem h.1, List.count_singleton_self,
      ih h.2, List.length_cons, Nat.zero_add, Nat.add_comm]

section

variable (hblank : Fits blank) (hts : ∀ t ∈ ts, Fits t)
include hblank hts

theorem glyphs_bars : glyphs (bars blank ts) =
    ([] :: ts.map fun t => glyphs (mark blank t)).flatMap (· ++ [.bare '|']) := by
  have hbar (u : Text) : glyphs ('|' :: u) = .bare '|' :: glyphs u := glyphs_cons (by decide) u
  rw [bars, hbar, List.flatMap_cons, List.nil_append, List.singleton_append]
  congr 1
  induction ts with
  | nil => rfl
  | cons t ts ih =>
    rw [List.forall_mem_cons] at hts
    rw [List.flatMap_cons, List.append_assoc, (hts.1.mark hblank).whole, List.singleton_append, hbar, ih hts.2]
    simp

theorem barless_parts : ∀ p ∈ [] :: ts.map fun t => glyphs (mark blank t), .bare '|' ∉ p :=
  List.forall_mem_cons.2 ⟨List.not_mem_nil, List.forall_mem_map.2 fun t ht => ((hts t ht).mark hblank).barless⟩

theorem fields_bars : fields (bars blank ts) = [] :: (ts.map fun t => glyphs (mark blank t)) ++ [[]] := by
  rw [fields, glyphs_bars hblank hts, splitOn_flatMap (barless_parts hblank hts)]

theorem count_bars : (glyphs (bars blank ts)).count (.bare '|') = ts.length + 1 := by
  rw [glyphs_bars hblank hts, count_flatMap (barless_parts hblank hts), List.length_cons, List.length_map]

theorem notMem_bars : '\n' ∉ bars blank ts := by
  rw [bars, List.mem_cons, List.mem_flatMap]
  rintro (h | ⟨t, ht, h⟩)
  · cases h
  · rcases List.mem_append.1 h with h | h
    · exact ((hts t ht).mark hblank).flat h
    · cases List.mem_singleton.1 h

end

/-! ### Tables -/

theorem fits_decimal (n : Nat) : Fits (Text.decimal n) :=
  fits_of_notMem (Text.notMem_decimal (by decide) n) (Text.notMem_decimal (by decide) n) (Text.notMem_decimal (by decide) n)

theorem fits_label {label : Text} (h : Label.IsWord label) : Fits label := by
  have hne {c : Char} (hc : Text.isCapital c = false) : c ∉ label := by
    intro hmem
    rw [h.2 c hmem] at hc
    cases hc
  exact fits_of_notMem (hne (by decide)) (hne (by decide)) (hne (by decide))

def header (labels : List Text) : Text := bars [' '] ([' '] :: labels)

def rule (labels : List Text) : Text := bars [] (List.replicate (labels.length + 1) "---".toList)

/-- A line for each row, numbered from `n` on. -/
def body (n : Nat) (rows : List (List Shown)) : List Text :=
  (rows.zipIdx n).map fun (row, n) => bars [' '] (Text.decimal n :: row.map cell)

theorem table_eq (labels : List Text) (rows : List (List Shown)) :
    table labels rows = (header labels :: rule labels :: body 1 rows).flatMap (· ++ ['\n']) := by
  rw [table, line_eq, line_eq, List.flatMap_cons, List.flatMap_cons, body, List.flatMap_map, List.append_assoc]
  rfl

theorem fits_numbered (n : Nat) (row : List Shown) : ∀ t ∈ Text.decimal n :: row.map cell, Fits t :=
  List.forall_mem_cons.2 ⟨fits_decimal n, List.forall_mem_map.2 fun v _ => fits_cell v⟩

theorem cells_bars (n : Nat) (row : List Shown) :
    cells (bars [' '] (Text.decimal n :: row.map cell)) = row.map fun v => glyphs (mark [' '] (cell v)) := by
  rw [cells, fields_bars fits_space (fits_numbered n row)]
  simp

theorem shows_body (n : Nat) (rows : List (List Shown)) :
    List.Forall₂ (fun line row => List.Forall₂ Shows (cells line) row) (body n rows) rows := by
  induction rows generalizing n with
  | nil => exact .nil
  | cons row rows ih =>
    refine .cons ?_ (ih (n + 1))
    rw [cells_bars]
    exact List.forall₂_map_left_iff.2 (List.forall₂_same.2 fun v _ => shows_cell v)

/-- A table of full rows under words has a line for each row and two above them, each with a bar for each column and two
more, and the cells of the rows show what they should. -/
theorem table_reads_back {labels : List Text} {rows : List (List Shown)} (hlabels : ∀ label ∈ labels, Label.IsWord label)
    (hrows : ∀ row ∈ rows, row.length = labels.length) : ∃ header rule body,
      (table labels rows).splitOn '\n' = header :: rule :: body ++ [[]] ∧
      body.length = rows.length ∧
      (∀ line ∈ header :: rule :: body, (glyphs line).count (.bare '|') = labels.length + 2) ∧
      List.Forall₂ (fun line row => List.Forall₂ Shows (cells line) row) body rows := by
  have hblank : Fits [] := fits_escape []
  have hheader : ∀ t ∈ [' '] :: labels, Fits t :=
    List.forall_mem_cons.2 ⟨fits_space, fun label hlabel => fits_label (hlabels label hlabel)⟩
  have hrule : ∀ t ∈ List.replicate (labels.length + 1) "---".toList, Fits t := by
    intro t ht
    rw [List.eq_of_mem_replicate ht]
    exact fits_of_notMem (by decide) (by decide) (by decide)
  have hbody : ∀ line ∈ body 1 rows, '\n' ∉ line ∧ (glyphs line).count (.bare '|') = labels.length + 2 := by
    refine List.forall_mem_map.2 fun ⟨row, n⟩ hrow => ?_
    refine ⟨notMem_bars fits_space (fits_numbered n row), ?_⟩
    rw [count_bars fits_space (fits_numbered n row), List.length_cons, List.length_map,
      hrows row (List.fst_mem_of_mem_zipIdx hrow)]
  refine ⟨header labels, rule labels, body 1 rows, ?_, (shows_body 1 rows).length_eq, ?_, shows_body 1 rows⟩
  · rw [table_eq, splitOn_flatMap]
    rw [List.forall_mem_cons, List.forall_mem_cons]
    exact ⟨notMem_bars fits_space hheader, notMem_bars hblank hrule, fun line hline => (hbody line hline).1⟩
  · rw [List.forall_mem_cons, List.forall_mem_cons]
    refine ⟨?_, ?_, fun line hline => (hbody line hline).2⟩
    · rw [header, count_bars fits_space hheader, List.length_cons]
    · rw [rule, count_bars hblank hrule, List.length_replicate]

end Markdown

namespace Sheet

open Markdown (Glyph glyphs cells Shows)

/-- After every run the table of the sheet has as many lines as the sheet has rows and two more, each ended by a line
feed, and each with as many bare bars as it has columns and two more. In the lines of the rows each cell shows its value:
without the padding and the emphasis of its style it stands for the value on one line, all that could be markup
escaped. -/
theorem markdown_reads_back (o : Options) (as : List Action) :
    let s := (new o).run as
    ∃ header rule body,
      s.markdown.2.splitOn '\n' = header :: rule :: body ++ [[]] ∧
      body.length = s.grid.height ∧
      (∀ line ∈ header :: rule :: body, (glyphs line).count (.bare '|') = s.grid.width + 2) ∧
      List.Forall₂ (fun line row => List.Forall₂ Shows (cells line) row) body s.render.2.rows := by
  intro s
  have h : s.Sound := sound_run o as
  have hgrid : s.render.1.grid = s.grid := congrArg Formula.Setting.grid s.setting_render
  have hshape := shape_rows_render h.wf
  have hheight : s.render.2.rows.length = s.grid.height := by
    rw [← List.length_map, hshape, List.length_replicate]
  have hrows : ∀ row ∈ s.render.2.rows, row.length = s.grid.headers.length := by
    intro row hrow
    have hlength : row.length ∈ s.render.2.rows.map List.length := List.mem_map_of_mem hrow
    rw [hshape] at hlength
    exact List.eq_of_mem_replicate hlength
  have htable : s.markdown.2 = Markdown.table s.grid.headers s.render.2.rows := by rw [← hgrid]; rfl
  rw [htable, ← hheight]
  exact Markdown.table_reads_back h.lettered hrows

end Sheet

end Spreadsheet
