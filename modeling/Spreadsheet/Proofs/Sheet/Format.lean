import Spreadsheet.Proofs.Formula.Dependence
import Spreadsheet.Proofs.Markup
import Spreadsheet.Proofs.Sheet.Sound

/-!
# Formatting

`Formatted s s' ws`: the second sheet is the first one with wrappers around its raw texts and nothing else written,
and `ws` says for each cell which ones, the last one first. One action that formats comes to such a step
(`formatted_act`), and so does a run of them (`formatted_run`). A formula sees of a cell only what the wrappers are
around, so if they are tools around balanced texts every cell still evaluates to what it did, and the wrappers are the
outermost layers of its style (`evaluate_formatted`).
-/

namespace Spreadsheet

open Markup (Balanced)

/-- The action writes nothing into the cells but the wrappers of tools. -/
def Action.Formats : Action → Prop
  | .format w => w.IsTool
  | .setTool w => ∀ v, w = some v → v.IsTool
  | .pointerEnter _ | .escape | .select _ | .extend _ | .clearSelection => True
  | .request _ _ | .generate | .retry _ | .render => True
  | _ => False

/-- The action may put a wrapper around a cell. -/
def Action.Wraps : Action → Prop
  | .format _ | .pointerEnter _ => True
  | _ => False

namespace Sheet

variable {s s' s'' : Sheet} {ws ws' : Cell → List Wrapper} {a : Action} {as : List Action}

/-- The wrapper that an action puts around a cell. -/
def wraps (s : Sheet) : Action → Cell → List Wrapper
  | .format w, c => if c ∈ s.selection.cells then [w] else []
  | .pointerEnter d, c => if c = d then s.tool.toList else []
  | _, _ => []

/-- The wrappers that a run of actions puts around a cell, the last one first. -/
def wrappings (s : Sheet) : List Action → Cell → List Wrapper
  | [], _ => []
  | a :: as, c => (s.act a).1.wrappings as c ++ s.wraps a c

/-- The tool in hand is one that was read from a name. -/
def InHand (s : Sheet) : Prop := ∀ w, s.tool = some w → w.IsTool

theorem inHand_of_empty (h : s.tool = none) : s.InHand := by
  intro w hw
  rw [h] at hw
  cases hw

/-- Only wrappers have been written. -/
structure Formatted (s s' : Sheet) (ws : Cell → List Wrapper) : Prop where
  options : s'.options = s.options
  generator : s'.generator = s.generator
  inHand : s.InHand → s'.InHand
  headers : s'.grid.headers = s.grid.headers
  height : s'.grid.height = s.grid.height
  raw? : ∀ c, s'.grid.raw? c = (s.grid.raw? c).map fun raw => (ws c).foldr Wrapper.apply raw

namespace Formatted

theorem of_grid_eq (hoptions : s'.options = s.options) (hgenerator : s'.generator = s.generator)
    (hinHand : s.InHand → s'.InHand) (hgrid : s'.grid = s.grid) : Formatted s s' fun _ => [] where
  options := hoptions
  generator := hgenerator
  inHand := hinHand
  headers := by rw [hgrid]
  height := by rw [hgrid]
  raw? c := by simp [hgrid]

theorem refl (s : Sheet) : Formatted s s fun _ => [] := of_grid_eq rfl rfl id rfl

theorem trans (h : Formatted s s' ws) (h' : Formatted s' s'' ws') : Formatted s s'' fun c => ws' c ++ ws c where
  options := h'.options.trans h.options
  generator := h'.generator.trans h.generator
  inHand := h'.inHand ∘ h.inHand
  headers := h'.headers.trans h.headers
  height := h'.height.trans h.height
  raw? c := by
    rw [h'.raw?, h.raw?, Option.map_map]
    simp only [Function.comp_def, List.foldr_append]

theorem congr (h : Formatted s s' ws) (hws : ∀ c, ws' c = ws c) : Formatted s s' ws' := by
  rwa [show ws' = ws from funext hws]

end Formatted

/-! ### One action -/

theorem formatted_wrap (w : Wrapper) (s : Sheet) (c : Cell) :
    Formatted s (s.wrap w c) fun d => if d = c then [w] else [] := by
  unfold wrap
  cases hraw : s.grid.raw? c with
  | none =>
    -- there is no such cell, so the wrapper goes nowhere
    refine ⟨rfl, rfl, id, rfl, rfl, fun d => ?_⟩
    by_cases hd : d = c
    · rw [hd, hraw]; rfl
    · simp [hd]
  | some raw =>
    refine ⟨rfl, rfl, id, rfl, Grid.height_set, fun d => ?_⟩
    show (s.grid.set c (w.apply raw)).raw? d = _
    by_cases hd : d = c
    · rw [hd, Grid.raw?_set_self (by rw [hraw]; rfl), hraw, if_pos rfl]
      rfl
    · rw [Grid.raw?_set_of_ne hd]
      simp [hd]

theorem formatted_foldl_wrap (w : Wrapper) {cs : List Cell} (hcs : cs.Nodup) (s : Sheet) :
    Formatted s (cs.foldl (wrap w) s) fun d => if d ∈ cs then [w] else [] := by
  induction cs generalizing s with
  | nil => exact (Formatted.refl s).congr fun d => by simp
  | cons c cs ih =>
    rw [List.nodup_cons] at hcs
    refine ((formatted_wrap w s c).trans (ih hcs.2 (s.wrap w c))).congr fun d => ?_
    by_cases hd : d = c
    · subst hd; simp [hcs.1]
    · simp [hd]

theorem nodup_selected (s : Selection) : s.cells.Nodup := by
  cases s with
  | idle => exact List.nodup_nil
  | single c => exact Area.nodup_cells _
  | range a area => exact Area.nodup_cells _

/-- What formats but wraps nothing leaves the cells alone. -/
theorem Effect.formatted {es : List Event} (h : Effect s a es s') (ha : a.Formats) (hwraps : ¬ a.Wraps) :
    Formatted s s' fun _ => [] := by
  cases h with
  | failed => exact .refl s
  | select | first | extend | clearSelection | retry => exact .of_grid_eq rfl rfl id rfl
  | setTool w => exact .of_grid_eq rfl rfl (fun _ => ha) rfl
  | escape => exact .of_grid_eq rfl rfl (fun _ => inHand_of_empty rfl) rfl
  | request h | generate h =>
    obtain ⟨raw, -, -, -, rfl⟩ := request_eq_ok h
    exact .of_grid_eq rfl rfl id rfl
  | render =>
    obtain ⟨pending, failed, h⟩ := exists_requestAll_eq (s.sights.flatten.filterMap s.due?) s
    rw [h]
    exact .of_grid_eq rfl rfl id rfl
  | format | pointerEnter => exact absurd trivial hwraps
  | setCell | editBar | addRow | addColumn | eraseRow | eraseColumn | setGenerator | complete => exact ha.elim

theorem formatted_act (ha : a.Formats) : Formatted s (s.act a).1 (s.wraps a) := by
  cases a with
  | format w =>
    rw [act_format, format]
    split
    · next hempty =>
      refine (Formatted.refl s).congr fun c => ?_
      simp [wraps, List.isEmpty_iff.1 hempty]
    · exact formatted_foldl_wrap w (nodup_selected s.selection) s
  | pointerEnter d =>
    show Formatted s (s.pointerEnter d).1 _
    unfold pointerEnter
    cases htool : s.tool with
    | none => exact (Formatted.refl s).congr fun c => by simp [wraps, htool]
    | some w => exact (formatted_wrap w s d).congr fun c => by simp [wraps, htool]
  | _ => exact (s.act_effect _).formatted ha id

theorem isTool_of_mem_wraps (h : s.InHand) (ha : a.Formats) {c : Cell} {w : Wrapper} (hw : w ∈ s.wraps a c) :
    w.IsTool := by
  unfold wraps at hw
  split at hw
  · split at hw
    · rw [List.mem_singleton.1 hw]
      exact ha
    · cases hw
  · split at hw
    · exact h w (Option.mem_toList.1 hw)
    · cases hw
  · cases hw

/-! ### A run of actions -/

theorem formatted_run (has : ∀ a ∈ as, a.Formats) (s : Sheet) : Formatted s (s.run as) (s.wrappings as) := by
  induction as generalizing s with
  | nil => exact .refl s
  | cons a as ih =>
    rw [List.forall_mem_cons] at has
    exact (formatted_act has.1).trans (ih has.2 _)

theorem isTool_of_mem_wrappings (h : s.InHand) (has : ∀ a ∈ as, a.Formats) {c : Cell} {w : Wrapper}
    (hw : w ∈ s.wrappings as c) : w.IsTool := by
  induction as generalizing s with
  | nil => cases hw
  | cons a as ih =>
    rw [List.forall_mem_cons] at has
    rcases List.mem_append.1 hw with hw | hw
    · exact ih ((formatted_act has.1).inHand h) has.2 hw
    · exact isTool_of_mem_wraps h has.1 hw

/-! ### What formulas see -/

/-- Formulas see only what the wrappers are around. -/
theorem Formatted.evaluate (h : Formatted s s' ws) (hcontent : ∀ c raw, s.grid.raw? c = some raw →
    (Styled.parse ((ws c).foldr Wrapper.apply raw)).content = (Styled.parse raw).content) (c : Cell) :
    s'.evaluate c = s.evaluate c := by
  have hcells (c : Cell) : s'.setting.content c = s.setting.content c := by
    show (Styled.parse (s'.grid.raw c)).content = (Styled.parse (s.grid.raw c)).content
    rw [Grid.raw, Grid.raw, h.raw?]
    cases hraw : s.grid.raw? c with
    | none => rfl
    | some raw => exact hcontent c raw hraw
  have hsame : Formula.Setting.SameBut ⟨0, 0⟩ s.setting s'.setting := by
    refine ⟨?_, rfl, Formula.Setting.locate?_of_shape h.headers h.height, fun c _ => hcells c⟩
    show s'.generator.map (fun _ => s'.options.maxOutputTokens) = s.generator.map fun _ => s.options.maxOutputTokens
    rw [h.generator, h.options]
  have hevaluate : s'.setting.evaluate = s.setting.evaluate := hsame.evaluate (hcells ⟨0, 0⟩)
  rw [Sheet.evaluate, Sheet.evaluate, h.raw?, hevaluate]
  cases hraw : s.grid.raw? c with
  | none => rfl
  | some raw => rw [Option.map_some, Option.map_some, Option.map_some, hcontent c raw hraw]

/-- Formatting with tools, any number of times, leaves what every cell of a sheet evaluates to, if the raw texts that
are formatted are balanced. The layers of a cell are then the wrappers, the last one outermost, around those that it
had, and they cover the style that it had one after the other. -/
theorem evaluate_formatted (s : Sheet) (as : List Action) (hinHand : s.InHand) (has : ∀ a ∈ as, a.Formats)
    (hbalanced : ∀ c, s.wrappings as c ≠ [] → Balanced (s.grid.raw c)) :
    (∀ c, (s.run as).evaluate c = s.evaluate c) ∧
    (∀ c, ((s.run as).grid.raw? c).map Styled.parse =
      (s.grid.raw? c).map fun raw => ⟨s.wrappings as c ++ (Styled.parse raw).layers, (Styled.parse raw).content⟩) ∧
    ∀ c, ((s.run as).grid.raw? c).map (fun raw => (Styled.parse raw).style) =
      (s.grid.raw? c).map fun raw => (s.wrappings as c).foldr (fun w style => style.cover w) (Styled.parse raw).style := by
  have h : Formatted s (s.run as) (s.wrappings as) := formatted_run has s
  have hparse : ∀ c raw, s.grid.raw? c = some raw → Styled.parse ((s.wrappings as c).foldr Wrapper.apply raw) =
      ⟨s.wrappings as c ++ (Styled.parse raw).layers, (Styled.parse raw).content⟩ := by
    intro c raw hraw
    refine Styled.parse_foldr_apply (fun w hw => isTool_of_mem_wrappings hinHand has hw) fun hne => ?_
    have hc := hbalanced c hne
    rwa [Grid.raw, hraw] at hc
  refine ⟨h.evaluate fun c raw hraw => by rw [hparse c raw hraw], fun c => ?_, fun c => ?_⟩
  · rw [h.raw?]
    cases hraw : s.grid.raw? c with
    | none => rfl
    | some raw => exact congrArg some (hparse c raw hraw)
  · rw [h.raw?]
    cases hraw : s.grid.raw? c with
    | none => rfl
    | some raw =>
      show some (Styled.parse ((s.wrappings as c).foldr Wrapper.apply raw)).style = _
      rw [hparse c raw hraw, Styled.style_append]
      rfl

/-- A formula that is made red and then italic, and the one that refers to it. -/
theorem evaluate_formatted_twice :
    let s := (new { rows := 1, cols := 2 }).run [.setCell ⟨0, 0⟩ "=1+(2)".toList, .setCell ⟨0, 1⟩ "=A1".toList,
      .select ⟨0, 0⟩]
    let as : List Action := [.format (.textColor "red".toList), .setTool (some .italic), .pointerEnter ⟨0, 0⟩]
    (∀ c, (s.run as).evaluate c = s.evaluate c) ∧
      (s.run as).grid.rows = [["italic(textColor(red, =1+(2)))".toList, "=A1".toList]] := by
  intro s as
  have hinHand : s.InHand := inHand_of_empty (by decide +kernel)
  have has : ∀ a ∈ as, a.Formats := by
    have hred : (Wrapper.textColor "red".toList).IsTool := ⟨"textColor:red".toList, by decide +kernel⟩
    have hitalic : Wrapper.italic.IsTool := ⟨"italic".toList, by decide +kernel⟩
    simpa [as, Action.Formats] using ⟨hred, hitalic⟩
  have hbalanced : ∀ c, Balanced (s.grid.raw c) := by
    have hrows : ∀ row ∈ s.grid.rows, ∀ raw ∈ row, Balanced raw := by decide +kernel
    intro c
    rw [Grid.raw]
    cases hraw : s.grid.raw? c with
    | none => decide
    | some raw =>
      obtain ⟨row, hrow, hcell⟩ := Grid.raw?_eq_some_iff.1 hraw
      exact hrows row (List.mem_of_getElem? hrow) raw (List.mem_of_getElem? hcell)
  exact ⟨(evaluate_formatted s as hinHand has fun c _ => hbalanced c).1, by decide +kernel⟩

end Sheet

end Spreadsheet
