import Mathlib.Data.List.Infix
import Spreadsheet.Proofs.Sheet.Selection

/-!
# The formula bar

The bar goes with its anchor. `Mirrors`: it shows the raw text of the anchor, if there is one, and so the anchor lies
in the grid. A click sets this up, and every way to write a cell keeps it, also when the text comes from a request that
was made while the cell stood elsewhere (`Mirrors.act`). Only an erasure at or before the anchor may break it, because
the selection keeps its place while the cells move; erasures behind the anchor do not matter (`bar_mirrors_anchor`).
-/

namespace Spreadsheet

/-- The row or column stands behind the one of the cell. -/
def Erasure.Behind (c : Cell) : Erasure → Prop
  | row i => c.row < i
  | column i => c.col < i

theorem Erasure.Behind.source {c : Cell} {e : Erasure} (h : e.Behind c) : e.source c = c := by
  cases e with
  | row i => rw [Erasure.source, unshift, if_pos (show c.row < i from h)]
  | column i => rw [Erasure.source, unshift, if_pos (show c.col < i from h)]

namespace Sheet

variable {s s' : Sheet} {a : Action} {as : List Action} {c d : Cell} {t : Text} {e : Erasure}

/-- The bar shows the raw text of the anchor. -/
def Mirrors (s : Sheet) : Prop := ∀ c, s.selection.anchor? = some c → s.grid.raw? c = some s.bar

/-- The anchor lies before whatever the action erases. -/
def Spares (s : Sheet) (a : Action) : Prop :=
  ∀ c, s.selection.anchor? = some c → ∀ e, .erased e ∈ s.events a → e.Behind c

namespace Mirrors

/-- What is done beside the anchor and the bar does not matter. -/
theorem congr (h : s.Mirrors) (hanchor : s'.selection.anchor? = s.selection.anchor?) (hbar : s'.bar = s.bar)
    (hgrid : ∀ c, s.selection.anchor? = some c → s.grid.raw? c = some s.bar → s'.grid.raw? c = some s.bar) :
    s'.Mirrors := by
  intro c hc
  rw [hanchor] at hc
  rw [hbar]
  exact hgrid c hc (h c hc)

theorem write (h : s.Mirrors) (c : Cell) (t : Text) : (s.write c t).Mirrors := by
  intro d hd
  replace hd : s.selection.anchor? = some d := hd
  show (s.grid.set c t).raw? d = some (if s.selection.anchor? = some c then t else s.bar)
  by_cases hdc : d = c
  · subst hdc
    rw [if_pos hd, Grid.raw?_set_self (by rw [h d hd]; rfl)]
  · have hne : s.selection.anchor? ≠ some c := fun hc => hdc (Option.some.inj (hd.symm.trans hc))
    rw [if_neg hne, Grid.raw?_set_of_ne hdc, h d hd]

theorem wrap (h : s.Mirrors) (w : Wrapper) (c : Cell) : (s.wrap w c).Mirrors := by
  unfold Sheet.wrap
  split
  · exact h.write c _
  · exact h

theorem foldl_wrap (h : s.Mirrors) (w : Wrapper) (cs : List Cell) : (cs.foldl (Sheet.wrap w) s).Mirrors := by
  induction cs generalizing s with
  | nil => exact h
  | cons c cs ih => exact ih (h.wrap w c)

theorem addRow (h : s.Mirrors) : s.addRow.Mirrors := h.congr rfl rfl fun _ _ => Grid.raw?_addRow

theorem addColumn (h : s.Mirrors) : s.addColumn.1.Mirrors := h.congr rfl rfl fun _ _ => Grid.raw?_addColumn

theorem erase (h : s.Mirrors) (hbehind : ∀ c, s.selection.anchor? = some c → e.Behind c) : (s.erase e).Mirrors := by
  refine h.congr rfl rfl fun c hc hraw => ?_
  show (s.grid.erase e).raw? c = some s.bar
  rw [Grid.raw?_erase, (hbehind c hc).source, hraw]

theorem request {r : Request} {task : Task} (h : s.Mirrors) (hr : s.request c r = .ok (s', task)) : s'.Mirrors := by
  obtain ⟨raw, -, -, -, rfl⟩ := request_eq_ok hr
  exact h.congr rfl rfl fun _ _ => id

theorem requestAll (h : s.Mirrors) (rs : List (Cell × Request)) : (s.requestAll rs).1.Mirrors := by
  obtain ⟨pending, failed, heq⟩ := exists_requestAll_eq rs s
  rw [heq]
  exact h.congr rfl rfl fun _ _ => id

/-- New content goes to where the cell that asked for it is now, and into the bar if that is the anchor. -/
theorem complete (h : s.Mirrors) (d : Completion) : (s.complete d).1.Mirrors := by
  unfold Sheet.complete
  split
  · exact h
  · next p _ =>
    have hdropped : { s with pending := s.pending.filter (·.ticket ≠ d.ticket) }.Mirrors := h
    dsimp only
    split
    · exact h
    · exact h
    · exact hdropped.write p.cell _

theorem of_click {raw : Text} (hraw : s.grid.raw? c = some raw) :
    { s with selection := .single c, bar := raw }.Mirrors := by
  intro d hd
  obtain rfl := Option.some.inj hd
  exact hraw

theorem of_select (hs : s.select c = .ok s') : s'.Mirrors := by
  obtain ⟨raw, hraw, rfl⟩ := select_eq_ok hs
  exact of_click hraw

theorem extend (h : s.Mirrors) (hidle : s.selection ≠ .idle) (c : Cell) :
    { s with selection := s.selection.extend c }.Mirrors := by
  refine h.congr ?_ rfl fun _ _ => id
  cases hselection : s.selection with
  | idle => exact absurd hselection hidle
  | single a => rfl
  | range a area => rfl

theorem effect {es : List Event} (h : s.Mirrors) (heffect : Effect s a es s')
    (hspares : ∀ c, s.selection.anchor? = some c → ∀ e, .erased e ∈ es → e.Behind c) : s'.Mirrors := by
  cases heffect with
  | failed | setTool | escape | setGenerator | retry => exact h
  | setCell | editBar => exact h.write _ _
  | select hraw | first _ hraw => exact of_click hraw
  | extend hidle => exact h.extend hidle _
  | clearSelection => exact nofun
  | addRow => exact h.addRow
  | addColumn => exact h.addColumn
  | eraseRow | eraseColumn => exact h.erase fun c hc => hspares c hc _ (List.mem_singleton_self _)
  | format w => exact h.foldl_wrap w _
  | pointerEnter c => exact h.wrap _ c
  | request hr | generate hr => exact h.request hr
  | complete d => exact h.complete d
  | render => exact h.requestAll _

/-- An action that erases nothing at or before the anchor leaves its text in the bar. -/
theorem act (h : s.Mirrors) (hspares : s.Spares a) : (s.act a).1.Mirrors := h.effect (s.act_effect a) hspares

/-- While a cell is the anchor, and nothing is erased at or before it, the bar shows its text. -/
theorem run (h : s.Mirrors) (hanchor : ∀ bs, bs <+: as → (s.run bs).selection.anchor? = some c)
    (herased : ∀ e, .erased e ∈ s.history as → e.Behind c) : (s.run as).Mirrors := by
  induction as generalizing s with
  | nil => exact h
  | cons a as ih =>
    have hfirst : s.Spares a := by
      intro d hd e he
      obtain rfl := Option.some.inj ((hanchor [] List.nil_prefix).symm.trans hd)
      exact herased e (List.mem_append_left _ he)
    refine ih (h.act hfirst) (fun bs hbs => ?_) fun e he => herased e (List.mem_append_right _ he)
    exact hanchor (a :: bs) (List.cons_prefix_cons.2 ⟨rfl, hbs⟩)

end Mirrors

/-- The click succeeds and makes the cell the anchor: it selects the cell, or extends to it when nothing is selected. -/
inductive Anchors (s : Sheet) (c : Cell) : Action → Prop
  | select (h : (s.act (.select c)).2 = .done) : s.Anchors c (.select c)
  | extend (hidle : s.selection = .idle) (h : (s.act (.extend c)).2 = .done) : s.Anchors c (.extend c)

theorem eq_ok_of_settleDone {r : Except Error Sheet} (h : (s.settleDone r).2 = .done) :
    r = .ok (s.settleDone r).1 := by
  cases r with
  | error e => cases h
  | ok s' => rfl

theorem select_of_extend (hidle : s.selection = .idle) (hs : s.extend c = .ok s') : s.select c = .ok s' := by
  rcases extend_eq_ok hs with ⟨-, hs⟩ | ⟨hne, -⟩
  · exact hs
  · exact absurd hidle hne

theorem Anchors.select_eq_ok (h : s.Anchors c a) : s.select c = .ok (s.act a).1 := by
  cases h with
  | select h =>
    rw [act_select] at h ⊢
    exact eq_ok_of_settleDone h
  | extend hidle h =>
    rw [act_extend] at h ⊢
    exact select_of_extend hidle (eq_ok_of_settleDone h)

/-- From the click that makes a cell the anchor, and as long as that cell stays the anchor and all that is erased lies
behind it, the cell is in the grid and the bar shows its raw text, whatever else is done to the sheet. -/
theorem bar_mirrors_anchor (hs : s.Reachable) {click : Action} (hclick : s.Anchors c click)
    (hanchor : ∀ bs, bs <+: as → ((s.act click).1.run bs).selection.anchor? = some c)
    (herased : ∀ e, .erased e ∈ (s.act click).1.history as → e.Behind c) :
    ((s.act click).1.run as).grid.contains c = true ∧
      ((s.act click).1.run as).grid.raw? c = some ((s.act click).1.run as).bar := by
  have hsound : ((s.act click).1.run as).Sound := (hs.act click).sound.steps (run_steps _ as)
  have hmirrors : ((s.act click).1.run as).Mirrors := (Mirrors.of_select hclick.select_eq_ok).run hanchor herased
  have hraw := hmirrors c (hanchor as (List.prefix_refl as))
  exact ⟨hsound.wf.contains_of_raw? hraw, hraw⟩

/-- Content comes in for a cell that has moved up, was selected and is then made bold. -/
theorem bar_mirrors_anchor_generated :
    let s := (new { rows := 3, cols := 2 }).run [.setGenerator (some fun _ => .error .timeout),
      .request ⟨2, 0⟩ ⟨"m".toList, "p".toList, 9⟩, .eraseRow 0]
    let as : List Action := [.eraseColumn 1, .complete ⟨0, .ok " new ".toList⟩, .format .bold]
    ((s.act (.select ⟨1, 0⟩)).1.run as).grid.raw? ⟨1, 0⟩ = some ((s.act (.select ⟨1, 0⟩)).1.run as).bar ∧
      ((s.act (.select ⟨1, 0⟩)).1.run as).bar = "bold(new)".toList := by
  intro s as
  have hclick : s.Anchors ⟨1, 0⟩ (.select ⟨1, 0⟩) := .select rfl
  have hanchor : ∀ bs, bs <+: as → ((s.act (.select ⟨1, 0⟩)).1.run bs).selection.anchor? = some ⟨1, 0⟩ := by
    have hall : ∀ bs ∈ as.inits, ((s.act (.select ⟨1, 0⟩)).1.run bs).selection.anchor? = some ⟨1, 0⟩ := by
      decide +kernel
    exact fun bs hbs => hall bs ((List.mem_inits bs as).2 hbs)
  have herased : ∀ e, .erased e ∈ (s.act (.select ⟨1, 0⟩)).1.history as → e.Behind ⟨1, 0⟩ := by
    have hhistory : (s.act (.select ⟨1, 0⟩)).1.history as = [.erased (.column 1), .completed 0] := by decide +kernel
    intro e he
    rw [hhistory] at he
    obtain rfl : e = .column 1 := by simpa using he
    exact Nat.zero_lt_one
  exact ⟨(bar_mirrors_anchor ⟨_, _, rfl⟩ hclick hanchor herased).2, by decide +kernel⟩

end Sheet

end Spreadsheet
